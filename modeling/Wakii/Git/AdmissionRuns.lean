import Wakii.Git.AdmissionDrain

/-!
# Runs of the admission scheduler

Whatever is acquired, aborted, released and delivered in whatever order, no slot
leaks and none is left free while a waiter fits it.
-/

namespace Wakii.GitAdmission

open WaiterQueue (isQueued LanesOk HeapsOk EligibleOk)
open List Function GitAdmissionScheduler

section Steps

variable {scheduler : GitAdmissionScheduler} {exempt : Option WaiterId} {id : WaiterId}

structure Invariant (scheduler : GitAdmissionScheduler) : Prop where
  core : Core scheduler none
  noFit : ∀ admissionClass, NoFit scheduler admissionClass

/-- A microtask is due for each granted waiter. -/
def Told (scheduler : GitAdmissionScheduler) : Prop :=
  ∀ id, (scheduler.waiters id).state = .granted →
    ∃ queueWaitMs, (id, queueWaitMs) ∈ scheduler.microtasks

theorem Keeps.told {turned : Option WaiterId} {before after : GitAdmissionScheduler}
    (hkeeps : Keeps turned before after) (htold : Told before) : Told after := by
  intro id hgranted
  obtain hbefore | hlater := hkeeps.granted id hgranted
  · obtain ⟨queueWaitMs, hentry⟩ := htold id hbefore
    exact ⟨queueWaitMs, hkeeps.microtasks hentry⟩
  · exact hlater

theorem outcomesOf_fresh (hcore : Core scheduler exempt) :
    outcomesOf scheduler.outcomes scheduler.nextWaiterId = [] := by
  refine filter_eq_nil_iff.mpr fun entry hentry heq => ?_
  have hbelow := hcore.outcomes_below entry hentry
  rw [beq_iff_eq.mp heq] at hbelow
  exact Nat.lt_irrefl _ hbelow

/-- The new waiter is queued and nothing else changes. -/
theorem Core.enqueueWaiter (hcore : Core scheduler none) (request : GitAdmissionRequest) (now : ℤ) :
    let next := scheduler.enqueueWaiter request now
    Core next none ∧ next.nextWaiterId = scheduler.nextWaiterId + 1 ∧
      next.waiters = Function.update scheduler.waiters scheduler.nextWaiterId
        (newWaiter request now) ∧
      (∀ key, next.budgetOf key = scheduler.budgetOf key) ∧ next.aborted = scheduler.aborted ∧
      next.microtasks = scheduler.microtasks ∧ next.outcomes = scheduler.outcomes := by
  intro next
  have hnext : next = scheduler.enqueueWaiter request now := rfl
  unfold GitAdmissionScheduler.enqueueWaiter at hnext
  dsimp only at hnext
  generalize hwaiter : newWaiter request now = waiter at hnext ⊢
  generalize hwaiters : Function.update scheduler.waiters scheduler.nextWaiterId waiter = waiters
  have hqueued : isQueued waiters scheduler.nextWaiterId = true := by
    rw [isQueued, ← hwaiters, update_self, ← hwaiter]
    rfl
  have hsame : ∀ other < scheduler.nextWaiterId, waiters other = scheduler.waiters other := by
    intro other hother
    rw [← hwaiters, update_of_ne (Nat.ne_of_lt hother)]
  obtain ⟨budgets, hensured, hvalues, hdomain⟩ :=
    @ensureBudgets_ok scheduler waiter.budgetKeys (budgetKeys_nodup _)
  have hlanes : LanesOk waiters scheduler.nextWaiterId (isQueued waiters) scheduler.queue :=
    hcore.lanes.congr (fun other hother => by rw [hsame other hother])
      (fun other hother => by rw [hsame other hother])
      (fun other hother => by rw [hsame other hother])
      fun other hother => isQueued_congr (hsame other hother)
  have hheaps : HeapsOk waiters scheduler.queue none := by
    refine ⟨hcore.heaps.base, hcore.heaps.headroom,
      fun admissionClass tier lane hlane hexempt => ?_⟩
    intro other hhead hother
    have hbelow := ((hcore.lanes.live _ _ lane hlane).members other (mem_of_getElem? hhead)).1
    refine hcore.heaps.published admissionClass tier lane hlane hexempt other hhead ?_
    rw [← isQueued_congr (hsame other hbelow)]
    exact hother
  obtain ⟨hl, hh, hbut⟩ := WaiterQueue.enqueue_ok hlanes hheaps hcore.eligible hqueued
  have hself : waiters scheduler.nextWaiterId = waiter := by
    rw [← hwaiters, update_self]
  rw [hself] at hbut
  have hbut' : WaiterQueue.EligibleBut (scheduler.queue.enqueue waiters scheduler.nextWaiterId)
      (GitAdmissionScheduler.elig { scheduler with budgets }) waiter.admissionClass waiter.route
      TIERS := by
    intro admissionClass tier lane hlane hother slotKind
    rw [hbut admissionClass tier lane hlane hother slotKind]
    cases lane.route with
    | none => rfl
    | some name => exact (congrArg (AdmissionBudget.hasFree · slotKind) (hvalues _)).symm
  obtain ⟨refreshed, queue, hrefresh, hrefreshed, hrefreshedDomain, hl', hh', he', hcounts, -⟩ :=
    @refreshRouteEligibility_ok
      { scheduler with
        budgets
        waiters
        queue := scheduler.queue.enqueue waiters scheduler.nextWaiterId
        nextWaiterId := scheduler.nextWaiterId + 1 }
      (scheduler.nextWaiterId + 1) (isQueued waiters) waiter.admissionClass waiter.route hl hh hbut'
  have hresult : next = { scheduler with
      budgets := refreshed
      waiters
      queue
      nextWaiterId := scheduler.nextWaiterId + 1 } := by
    rw [hnext, hensured]
    subst hwaiters
    exact hrefresh
  have hcountsNew : ∀ key, queue.countsByBudget key = scheduler.queue.countsByBudget key +
      if key ∈ waiter.budgetKeys then 1 else 0 := by
    intro key
    have hlive : queue.countsByBudget key = CountBelow.count
        (fun other => isQueued waiters other && decide (key ∈ (waiters other).budgetKeys))
        (scheduler.nextWaiterId + 1) := hl'.counts key
    rw [hlive, CountBelow.count, hlanes.counts key, hqueued, hself]
    simp
  rw [hresult]
  refine ⟨⟨hl', hh', ?_, ?_, ?_, ?_, fun _ h => (by cases h), ?_, ?_⟩, rfl, rfl, ?_, rfl, rfl, rfl⟩
  · exact eligible_congr he' fun key => (hrefreshed key).symm
  · have hold := (hcore.budgets.congr hvalues).congr hrefreshed
    refine ⟨fun key slotKind => ?_, hold.capacity, hold.bounded⟩
    change (budgetIn scheduler.config refreshed key).used slotKind =
      CountBelow.count (holds waiters key slotKind) (scheduler.nextWaiterId + 1)
    rw [hold.used key slotKind, CountBelow.count]
    have hnew : holds waiters key slotKind scheduler.nextWaiterId = false := by
      rw [holds, hself, ← hwaiter]
      rfl
    rw [hnew]
    refine CountBelow.count_congr fun other hother => ?_
    rw [holds, holds, hsame other hother]
  · intro admissionClass route _ hsome
    change _ ∨ queue.countsByBudget (.ofRoute admissionClass route) ≠ 0
    by_cases hkey : BudgetKey.ofRoute admissionClass route ∈ waiter.budgetKeys
    · refine .inr ?_
      rw [hcountsNew, if_pos hkey]
      exact Nat.succ_ne_zero _
    · have hold : (scheduler.budgets (.ofRoute admissionClass route)).isSome := by
        refine (hdomain _ ?_).resolve_right hkey
        exact (hrefreshedDomain _ hsome).resolve_right fun hmem => hkey (route_key_mem hmem)
      have hvalue : budgetIn scheduler.config refreshed (.ofRoute admissionClass route) =
          budgetIn scheduler.config scheduler.budgets (.ofRoute admissionClass route) :=
        (hrefreshed _).trans (hvalues _)
      rw [hcountsNew, if_neg hkey, Nat.add_zero]
      change (budgetIn scheduler.config refreshed (.ofRoute admissionClass route)).isUnused =
        false ∨ _
      rw [hvalue]
      exact hcore.routes admissionClass route not_mem_nil hold
  · intro other hother _
    by_cases heq : other = scheduler.nextWaiterId
    · subst heq
      change PromiseOk _ (waiters scheduler.nextWaiterId) (outcomesOf scheduler.outcomes _)
      rw [hself, outcomesOf_fresh hcore, ← hwaiter]
      exact ⟨rfl, rfl, rfl, rfl, rfl⟩
    · have hbelow : other < scheduler.nextWaiterId :=
        Nat.lt_of_le_of_ne (Nat.le_of_lt_succ hother) heq
      change PromiseOk other (waiters other) _
      rw [hsame other hbelow]
      exact hcore.promises other hbelow (by simp)
  · exact fun entry hentry => Nat.lt_succ_of_lt (hcore.outcomes_below entry hentry)
  · exact fun entry hentry => Nat.lt_succ_of_lt (hcore.microtasks_below entry hentry)
  · exact fun key => (hrefreshed key).trans (hvalues key)

theorem Core.close (hcore : Core scheduler (some id))
    (hpromise : PromiseOk id (scheduler.waiters id) (outcomesOf scheduler.outcomes id)) :
    Core scheduler none := by
  refine ⟨hcore.lanes, hcore.heaps, hcore.eligible, hcore.budgets, hcore.routes, ?_,
    fun _ h => (by cases h), hcore.outcomes_below, hcore.microtasks_below⟩
  intro other hother _
  by_cases heq : other = id
  · rw [heq]
    exact hpromise
  · exact hcore.promises other hother fun h => heq (Option.some.inj h).symm

variable {waiter : AdmissionWaiter}

/-- A change to a waiter that is not queued and holds the same slots, with its promise set
apart. -/
theorem Core.setAway (hcore : Core scheduler exempt) (hexempt : ∀ other, exempt = some other →
      other = id) (haway : isQueued scheduler.waiters id = false)
    (hplace : SamePlace (scheduler.waiters id) waiter) (hstate : waiter.state ≠ .queued)
    (hslot : waiter.slotKind = (scheduler.waiters id).slotKind)
    (hreturns : waiter.returns = (scheduler.waiters id).returns) :
    Core (scheduler.setWaiter id waiter) (some id) := by
  refine ⟨lanes_update_away hcore.lanes hplace haway hstate,
    heaps_update hcore.heaps fun h => absurd h hstate, hcore.eligible,
    budgets_update hcore.budgets fun key slotKind => ?_, hcore.routes, ?_, ?_,
    hcore.outcomes_below, hcore.microtasks_below⟩
  · rw [holds_update_self, holds, hslot, hreturns, hplace.budgetKeys]
  · intro other hother hne
    have hdifferent : other ≠ id := fun h => hne (h ▸ rfl)
    change PromiseOk other (Function.update scheduler.waiters id waiter other) _
    rw [update_of_ne hdifferent]
    exact hcore.promises other hother fun h => hdifferent (hexempt other h)
  · intro other heq
    cases heq
    change isQueued (Function.update scheduler.waiters id waiter) id = false
    rw [isQueued, update_self]
    simpa using hstate

theorem Core.settle (hcore : Core scheduler (some id)) (hbound : id < scheduler.nextWaiterId)
    (outcome : Outcome) : Core (scheduler.settle id outcome) (some id) := by
  refine ⟨hcore.lanes, hcore.heaps, hcore.eligible, hcore.budgets, hcore.routes, ?_,
    hcore.exempt_away, ?_, hcore.microtasks_below⟩
  · intro other hother hne
    have hdifferent : id ≠ other := fun h => hne (h ▸ rfl)
    change PromiseOk other _ (outcomesOf (scheduler.outcomes ++ [(id, outcome)]) other)
    rw [outcomesOf_append, if_neg hdifferent, append_nil]
    exact hcore.promises other hother hne
  · intro entry hentry
    cases mem_append.mp hentry with
    | inl hold => exact hcore.outcomes_below entry hold
    | inr hnew =>
      rw [mem_singleton.mp hnew]
      exact hbound

theorem Core.settleAway (hcore : Core scheduler exempt) (hexempt : ∀ other, exempt = some other →
      other = id) (hbound : id < scheduler.nextWaiterId)
    (haway : isQueued scheduler.waiters id = false) {outcome : Outcome}
    (hplace : SamePlace (scheduler.waiters id) waiter) (hstate : waiter.state = .settled)
    (hslot : waiter.slotKind = (scheduler.waiters id).slotKind)
    (hreturns : waiter.returns = (scheduler.waiters id).returns)
    (hpromise : PromiseOk id waiter (outcomesOf scheduler.outcomes id ++ [(id, outcome)])) :
    Core ((scheduler.setWaiter id waiter).settle id outcome) none := by
  have hsettled : waiter.state ≠ .queued := by
    rw [hstate]
    rintro ⟨⟩
  have hset := hcore.setAway hexempt haway hplace hsettled hslot hreturns
  refine Core.close (hset.settle hbound outcome) ?_
  change PromiseOk id (Function.update scheduler.waiters id waiter id)
    (outcomesOf (scheduler.outcomes ++ [(id, outcome)]) id)
  rw [update_self, outcomesOf_append, if_pos rfl]
  exact hpromise

theorem still_setWaiter (hstate : waiter.state ≠ .queued) {other : WaiterId}
    (hqueued : isQueued (Function.update scheduler.waiters id waiter) other = true) :
    Function.update scheduler.waiters id waiter other = scheduler.waiters other := by
  by_cases heq : other = id
  · rw [heq, isQueued, update_self] at hqueued
    exact absurd (beq_iff_eq.mp hqueued) hstate
  · exact update_of_ne heq _ _

theorem slotKindFor_none (hnone : (scheduler.slotKindFor waiter).isSome = false) :
    scheduler.fits waiter .base = false ∧
      (waiter.tier = .interactive → scheduler.fits waiter .headroom = false) := by
  unfold slotKindFor at hnone
  split_ifs at hnone with hbase hheadroom
  · cases hnone
  · cases hnone
  · exact ⟨Bool.not_eq_true _ ▸ hbase, fun htier => by
      cases hfits : scheduler.fits waiter .headroom with
      | false => rfl
      | true => exact absurd ⟨htier, hfits⟩ hheadroom⟩

variable {admissionClass : AdmissionClass}

/-- A new waiter that fits no slot leaves nobody fitting; one that fits touches its class only. -/
theorem Invariant.noFit_enqueueWaiter (hinv : Invariant scheduler) (request : GitAdmissionRequest)
    (now : ℤ) (hother : request.admissionClass = admissionClass →
      ((scheduler.enqueueWaiter request now).slotKindFor (newWaiter request now)).isSome = false) :
    NoFit (scheduler.enqueueWaiter request now) admissionClass := by
  obtain ⟨-, hbound, hwaiters, hbudgets, -⟩ := hinv.core.enqueueWaiter request now
  intro id hid hqueued hclass
  rw [hbound] at hid
  rw [hwaiters] at hqueued hclass ⊢
  by_cases heq : id = scheduler.nextWaiterId
  · rw [heq, update_self] at hclass ⊢
    exact slotKindFor_none (hother hclass)
  · rw [isQueued, update_of_ne heq] at hqueued
    rw [update_of_ne heq] at hclass ⊢
    have hold := hinv.noFit admissionClass id
      (Nat.lt_of_le_of_ne (Nat.le_of_lt_succ hid) heq) hqueued hclass
    rw [fits_congr fun key _ => hbudgets key, fits_congr fun key _ => hbudgets key]
    exact hold

/-- A request becomes a waiter; what follows turns nobody away but for his signal. -/
theorem Invariant.acquire_ok (hinv : Invariant scheduler) (request : GitAdmissionRequest) (now : ℤ)
    (clock : ℕ → ℤ) (hsignal : (request.signal.map scheduler.aborted).getD false = false) :
    let next := scheduler.acquire request now clock
    Invariant next ∧ next.nextWaiterId = scheduler.nextWaiterId + 1 ∧
      Keeps none (scheduler.enqueueWaiter request now) next := by
  obtain ⟨hcore, hbound, -⟩ := hinv.core.enqueueWaiter request now
  unfold GitAdmissionScheduler.acquire
  rw [hsignal]
  dsimp only
  rw [if_neg Bool.false_ne_true]
  split_ifs with hfits
  · obtain ⟨hdrained, hframe, hkeeps, hnoFit, hbudgets⟩ :=
      @drainAll_ok _ none request.admissionClass clock hcore
    refine ⟨⟨hdrained, fun admissionClass => ?_⟩, hframe.bound.trans hbound, hkeeps⟩
    by_cases hclass : request.admissionClass = admissionClass
    · exact hclass ▸ hnoFit
    · have hbefore := hinv.noFit_enqueueWaiter request now fun h => absurd h hclass
      exact hbefore.keep hframe.bound hframe.still
        fun key hkey => hbudgets key fun h => hclass (h.symm.trans hkey)
  · exact ⟨⟨hcore, fun admissionClass =>
      hinv.noFit_enqueueWaiter request now fun _ => Bool.not_eq_true _ ▸ hfits⟩, hbound,
      Keeps.of_same rfl rfl rfl rfl⟩

theorem acquire_aborted {request : GitAdmissionRequest} {now : ℤ} {clock : ℕ → ℤ}
    (hsignal : (request.signal.map scheduler.aborted).getD false = true) :
    scheduler.acquire request now clock = scheduler := if_pos hsignal

theorem Invariant.enqueued_aborted (hinv : Invariant scheduler) {request : GitAdmissionRequest}
    {now : ℤ} (hsignal : (request.signal.map scheduler.aborted).getD false = false)
    (haborted : (scheduler.enqueueWaiter request now).signalAborted id = true) :
    id ≠ scheduler.nextWaiterId ∧ scheduler.signalAborted id = true := by
  obtain ⟨-, -, hwaiters, -, hsame, -⟩ := hinv.core.enqueueWaiter request now
  rw [signalAborted, hwaiters, hsame] at haborted
  by_cases heq : id = scheduler.nextWaiterId
  · rw [heq, update_self] at haborted
    cases hsignal.symm.trans haborted
  · rw [update_of_ne heq] at haborted
    exact ⟨heq, haborted⟩

/-- The waiter of a request stands where the request says, and nothing became of it yet. -/
theorem Invariant.acquired (hinv : Invariant scheduler) (request : GitAdmissionRequest) (now : ℤ)
    (clock : ℕ → ℤ) (hsignal : (request.signal.map scheduler.aborted).getD false = false) :
    let next := scheduler.acquire request now clock
    SamePlace (newWaiter request now) (next.waiters scheduler.nextWaiterId) ∧
      outcomesOf next.outcomes scheduler.nextWaiterId = [] := by
  obtain ⟨-, -, hkeeps⟩ := hinv.acquire_ok request now clock hsignal
  obtain ⟨-, -, hwaiters, -, -, -, houtcomes⟩ := hinv.core.enqueueWaiter request now
  have hself : (scheduler.enqueueWaiter request now).waiters scheduler.nextWaiterId =
      newWaiter request now := by rw [hwaiters, update_self]
  refine ⟨hself ▸ hkeeps.place _, filter_eq_nil_iff.mpr ?_⟩
  rintro ⟨id, outcome⟩ hentry hid
  obtain rfl : id = scheduler.nextWaiterId := beq_iff_eq.mp hid
  obtain hbefore | ⟨-, hturned | hnobody⟩ := hkeeps.outcomes _ _ hentry
  · rw [houtcomes] at hbefore
    exact Nat.lt_irrefl _ (hinv.core.outcomes_below _ hbefore)
  · exact (hinv.enqueued_aborted hsignal hturned).1 rfl
  · cases hnobody

/-- The slot of a waiter that is not queued is given back, and who fits it then gets it. -/
theorem Core.returnAndDrain (hcore : Core scheduler exempt) (hbound : id < scheduler.nextWaiterId)
    (haway : isQueued scheduler.waiters id = false) {slotKind : AdmissionSlotKind}
    (hslot : (scheduler.waiters id).slotKind = some slotKind)
    (hnever : (scheduler.waiters id).returns = 0)
    (hexempt : ∀ other, exempt = some other → other = id)
    (hnoFit : ∀ admissionClass, NoFit scheduler admissionClass) (clock : ℕ → ℤ) :
    let next := (scheduler.returnSlot id slotKind).drainAll
      (scheduler.waiters id).admissionClass clock
    Core next (some id) ∧ next.nextWaiterId = scheduler.nextWaiterId ∧
      next.waiters id = { scheduler.waiters id with returns := 1 } ∧
      outcomesOf next.outcomes id = outcomesOf scheduler.outcomes id ∧
      (∀ admissionClass, NoFit next admissionClass) ∧ Keeps none scheduler next := by
  obtain ⟨hreturned, hsame, hwaiters, houtcomes, hreturnBudgets, hreturnKeeps⟩ :=
    hcore.returnSlot hbound haway hslot hnever hexempt
  obtain ⟨hdrained, hframe, hdrainKeeps, hown, hdrainBudgets⟩ := @drainAll_ok _ (some id)
    (scheduler.waiters id).admissionClass clock hreturned
  obtain ⟨hwaiter, hsettled⟩ := hframe.away id (hreturned.exempt_away id rfl)
  have hfinal : (scheduler.returnSlot id slotKind).waiters id =
      { scheduler.waiters id with returns := 1 } := by
    rw [hwaiters, update_self, hnever]
  refine ⟨hdrained, hframe.bound.trans hsame, hwaiter.trans hfinal,
    hsettled.trans (congrArg (outcomesOf · id) houtcomes), fun admissionClass => ?_,
    hreturnKeeps.trans hdrainKeeps⟩
  by_cases hclass : (scheduler.waiters id).admissionClass = admissionClass
  · exact hclass ▸ hown
  refine (hnoFit admissionClass).keep (hframe.bound.trans hsame) ?_ ?_
  · intro other hqueued
    have hstill := hframe.still other hqueued
    have hbefore : isQueued (scheduler.returnSlot id slotKind).waiters other = true :=
      (isQueued_congr hstill).symm.trans hqueued
    rw [hstill]
    rw [hwaiters] at hbefore ⊢
    refine still_setWaiter (fun hstate => ?_) hbefore
    have hqueued' : isQueued scheduler.waiters id = true := isQueued_iff.mpr hstate
    rw [hqueued'] at haway
    cases haway
  · intro key hkey
    rw [hdrainBudgets key fun h => hclass (h.symm.trans hkey)]
    exact hreturnBudgets key fun hmem => hclass ((budgetKeys_class hmem).symm.trans hkey)

theorem noFit_settle (hnoFit : NoFit scheduler admissionClass) (hstate : waiter.state ≠ .queued)
    (outcome : Outcome) :
    NoFit ((scheduler.setWaiter id waiter).settle id outcome) admissionClass :=
  hnoFit.keep rfl (fun _ => still_setWaiter hstate) fun _ _ => rfl

theorem rejectWaiter_away (hstate : (scheduler.waiters id).state ≠ .queued) :
    scheduler.rejectWaiter id = (scheduler.setWaiter id
      { scheduler.waiters id with state := .settled }).settle id .rejected := by
  unfold rejectWaiter
  dsimp only
  rw [if_neg hstate]

theorem pruneRouteBudgets_waiters (keys : List BudgetKey) :
    (scheduler.pruneRouteBudgets keys).waiters = scheduler.waiters ∧
      (scheduler.pruneRouteBudgets keys).outcomes = scheduler.outcomes := by
  unfold pruneRouteBudgets
  induction keys generalizing scheduler with
  | nil => exact ⟨rfl, rfl⟩
  | cons key keys ih =>
    rw [foldl_cons]
    have hone : (scheduler.pruneRouteBudget key).waiters = scheduler.waiters ∧
        (scheduler.pruneRouteBudget key).outcomes = scheduler.outcomes := by
      unfold pruneRouteBudget
      split
      · split_ifs
        · exact ⟨rfl, rfl⟩
        · exact ⟨rfl, rfl⟩
      · exact ⟨rfl, rfl⟩
    exact ⟨ih.1.trans hone.1, ih.2.trans hone.2⟩

theorem rejectWaiter_settles :
    (scheduler.rejectWaiter id).waiters id = { scheduler.waiters id with state := .settled } ∧
      outcomesOf (scheduler.rejectWaiter id).outcomes id =
        outcomesOf scheduler.outcomes id ++ [(id, .rejected)] := by
  unfold rejectWaiter
  dsimp only
  split_ifs with hqueued
  · obtain ⟨hwaiters, houtcomes⟩ := @pruneRouteBudgets_waiters
      ((scheduler.setWaiter id { scheduler.waiters id with state := .settled }).setQueue
        ((scheduler.setWaiter id { scheduler.waiters id with state := .settled }).queue.dequeue
          (scheduler.setWaiter id { scheduler.waiters id with state := .settled }).waiters id))
      (scheduler.waiters id).budgetKeys
    refine ⟨(congrFun hwaiters id).trans (update_self _ _ _), ?_⟩
    refine (congrArg (fun outcomes => outcomesOf (outcomes ++ [(id, .rejected)]) id)
      houtcomes).trans ?_
    exact outcomesOf_append.trans (by rw [if_pos rfl]; rfl)
  · exact ⟨update_self _ _ _, outcomesOf_append.trans (by rw [if_pos rfl]; rfl)⟩

/-- A waiter that was told of its slot has one, and gave it back where it was released. -/
theorem PromiseOk.delivered {waiter : AdmissionWaiter} {outcomes : List (WaiterId × Outcome)}
    (hpromise : PromiseOk id waiter outcomes) (hdelivered : waiter.delivered = true) :
    waiter.state = .settled ∧ waiter.slotKind.isSome = true ∧
      waiter.returns = (if waiter.released then 1 else 0) ∧
      ∃ queueWaitMs, outcomes = [(id, .resolved queueWaitMs)] := by
  rw [PromiseOk] at hpromise
  cases hstate : waiter.state with
  | queued =>
    rw [hstate] at hpromise
    rw [hpromise.2.1] at hdelivered
    cases hdelivered
  | granted =>
    rw [hstate] at hpromise
    rw [hpromise.2.1] at hdelivered
    cases hdelivered
  | settled =>
    rw [hstate] at hpromise
    obtain ⟨-, htold⟩ | ⟨hnever, -⟩ := hpromise
    · exact ⟨rfl, htold⟩
    · rw [hdelivered] at hnever
      cases hnever

theorem release_idle (hidle : ¬ ((scheduler.waiters id).delivered = true ∧
      (scheduler.waiters id).released = false)) (clock : ℕ → ℤ) :
    scheduler.release id clock = scheduler := by
  unfold GitAdmissionScheduler.release
  dsimp only
  split
  · rfl
  · refine if_neg fun hdue => hidle ?_
    rw [Bool.and_eq_true, Bool.not_eq_true'] at hdue
    exact hdue

section

variable (hinv : Invariant scheduler)
include hinv

/-- What an abort does to a waiter that was not told of its slot. -/
theorem Invariant.abort_ok (hbound : id < scheduler.nextWaiterId) (clock : ℕ → ℤ) :
    let next := scheduler.abort id clock
    Invariant next ∧ next.nextWaiterId = scheduler.nextWaiterId ∧
      ((scheduler.waiters id).delivered = false → outcomesOf next.outcomes id = [(id, .rejected)] ∧
          (next.waiters id).delivered = false ∧ (next.waiters id).state = .settled) ∧
      Keeps (some id) scheduler next := by
  have hpromise := hinv.core.promises id hbound (by simp)
  unfold GitAdmissionScheduler.abort
  dsimp only
  rw [PromiseOk] at hpromise
  cases hstate : (scheduler.waiters id).state with
  | settled =>
    rw [hstate] at hpromise
    refine ⟨hinv, rfl, fun hdelivered => ?_, Keeps.of_same rfl rfl rfl rfl⟩
    obtain ⟨htrue, -⟩ | ⟨-, -, hrejected⟩ := hpromise
    · rw [hdelivered] at htrue
      cases htrue
    · exact ⟨hrejected, hdelivered, hstate⟩
  | queued =>
    rw [hstate] at hpromise
    obtain ⟨-, hdelivered, -, -, hnone⟩ := hpromise
    obtain ⟨hcore, hframe, hbudgets, -, hkeeps⟩ :=
      hinv.core.rejectQueued hbound (isQueued_iff.mpr hstate)
    obtain ⟨hwaiter, hsettled⟩ := @rejectWaiter_settles scheduler id
    refine ⟨⟨hcore, fun admissionClass => (hinv.noFit admissionClass).keep hframe.bound
      hframe.still fun key _ => hbudgets key⟩, hframe.bound, fun _ => ⟨?_, ?_, ?_⟩, hkeeps⟩
    · rw [hsettled, hnone, nil_append]
    · rw [hwaiter]
      exact hdelivered
    · rw [hwaiter]
  | granted =>
    rw [hstate] at hpromise
    obtain ⟨hsome, hdelivered, hreleased, hreturns, hnone⟩ := hpromise
    have haway : isQueued scheduler.waiters id = false := by
      rw [isQueued, hstate]
      rfl
    cases hslot : (scheduler.waiters id).slotKind with
    | none =>
      rw [hslot] at hsome
      cases hsome
    | some slotKind =>
      obtain ⟨hreturned, hsame, hwaiter, houtcomes, hnoFit, hkeeps⟩ :=
        hinv.core.returnAndDrain hbound haway hslot hreturns (by simp) hinv.noFit clock
      dsimp only
      generalize (scheduler.returnSlot id slotKind).drainAll
        (scheduler.waiters id).admissionClass clock = drained at *
      have hstill : (drained.waiters id).state ≠ .queued := by
        rw [hwaiter]
        exact fun h => by cases h.symm.trans hstate
      obtain ⟨hfinal, hrejected⟩ := @rejectWaiter_settles drained id
      have hone : outcomesOf (drained.rejectWaiter id).outcomes id = [(id, .rejected)] := by
        rw [hrejected, houtcomes, hnone, nil_append]
      refine ⟨⟨?_, fun admissionClass => ?_⟩, ?_, fun _ => ⟨hone, ?_, ?_⟩, ?_⟩
      · rw [rejectWaiter_away hstill]
        refine hreturned.settleAway (fun _ h => (Option.some.inj h).symm) (hsame ▸ hbound)
          (hreturned.exempt_away id rfl) ⟨rfl, rfl, rfl, rfl⟩ rfl rfl rfl ?_
        rw [houtcomes, hnone, hwaiter]
        refine .inr ⟨hdelivered, ?_, rfl⟩
        change 1 = if (scheduler.waiters id).slotKind.isSome then 1 else 0
        rw [if_pos hsome]
      · rw [rejectWaiter_away hstill]
        refine noFit_settle (hnoFit admissionClass) ?_ _
        rintro ⟨⟩
      · rw [rejectWaiter_away hstill]
        exact hsame
      · rw [hfinal, hwaiter]
        exact hdelivered
      · rw [hfinal]
      · rw [rejectWaiter_away hstill]
        refine (hkeeps.mono fun _ h => (by cases h)).trans
          (keeps_update rfl ⟨rfl, rfl, rfl, rfl⟩ rfl (Subset.refl _) (fun h => (by cases h)) ?_)
        intro other outcome hentry
        refine (mem_append.mp hentry).imp_right fun hnew => ?_
        cases mem_singleton.mp hnew
        exact ⟨rfl, .inr rfl⟩

/-- The first release after the delivery gives the slot back, and who fits it then gets it. -/
theorem Invariant.release_ok (hbound : id < scheduler.nextWaiterId) (clock : ℕ → ℤ)
    (hdelivered : (scheduler.waiters id).delivered = true)
    (hreleased : (scheduler.waiters id).released = false) :
    let next := scheduler.release id clock
    Invariant next ∧ Keeps none scheduler next ∧ (next.waiters id).released = true ∧
      (next.waiters id).returns = 1 := by
  have hpromise := hinv.core.promises id hbound (by simp)
  obtain ⟨hstate, hsome, hreturns, hresolved⟩ := hpromise.delivered hdelivered
  rw [hreleased] at hreturns
  obtain ⟨slotKind, hslot⟩ := Option.isSome_iff_exists.mp hsome
  unfold GitAdmissionScheduler.release
  dsimp only
  rw [hslot, hdelivered, hreleased]
  dsimp only
  rw [Bool.not_false, Bool.and_self, if_pos rfl]
  generalize hwaiter : AdmissionWaiter.mk _ _ _ _ _ _ _ _ true _ = waiter
  have hplace : SamePlace (scheduler.waiters id) waiter := by
    rw [← hwaiter]
    exact ⟨rfl, rfl, rfl, rfl⟩
  have haway : isQueued scheduler.waiters id = false := by
    rw [isQueued, hstate]
    rfl
  have hself : (scheduler.setWaiter id waiter).waiters id = waiter := update_self _ _ _
  have hsettled : waiter.state = .settled := by
    rw [← hwaiter]
    exact hstate
  have hnotQueued : waiter.state ≠ .queued := by
    rw [hsettled]
    rintro ⟨⟩
  have hset : Core (scheduler.setWaiter id waiter) (some id) := by
    refine hinv.core.setAway (fun _ h => (by cases h)) haway hplace hnotQueued ?_ ?_
    · rw [← hwaiter]
      exact hslot.symm
    · rw [← hwaiter]
  have hnoFit : ∀ admissionClass, NoFit (scheduler.setWaiter id waiter) admissionClass :=
    fun admissionClass => (hinv.noFit admissionClass).keep rfl
      (fun _ => still_setWaiter hnotQueued) fun _ _ => rfl
  have hclass : (scheduler.waiters id).admissionClass =
      ((scheduler.setWaiter id waiter).waiters id).admissionClass := by
    rw [hself, hplace.admissionClass]
  have hkeeps : Keeps none scheduler (scheduler.setWaiter id waiter) :=
    keeps_update rfl hplace rfl (Subset.refl _) (fun h => by cases hsettled.symm.trans h)
      fun _ _ => .inl
  rw [hclass]
  obtain ⟨hreturned, hsame, hfinal, houtcomes, hdrained, hlater⟩ := hset.returnAndDrain hbound
    (hset.exempt_away id rfl) (by rw [hself, ← hwaiter]) (by rw [hself, ← hwaiter]; exact hreturns)
    (fun _ h => (Option.some.inj h).symm) hnoFit clock
  refine ⟨⟨hreturned.close ?_, hdrained⟩, hkeeps.trans hlater, ?_, ?_⟩
  · rw [hfinal, houtcomes, hself, ← hwaiter, PromiseOk]
    dsimp only
    rw [hstate]
    exact .inl ⟨rfl, rfl, rfl, hresolved⟩
  · rw [hfinal, hself, ← hwaiter]
  · rw [hfinal]

/-- A microtask settles the promise of a granted waiter, which keeps its slot. -/
theorem Invariant.deliver_ok (hbound : id < scheduler.nextWaiterId) (queueWaitMs : ℤ)
    (hstate : (scheduler.waiters id).state = .granted) :
    let next := scheduler.deliver id queueWaitMs
    Invariant next ∧ outcomesOf next.outcomes id = [(id, .resolved queueWaitMs)] ∧
      (next.waiters id).delivered = true ∧ next.budgets = scheduler.budgets := by
  have hpromise := hinv.core.promises id hbound (by simp)
  unfold GitAdmissionScheduler.deliver
  dsimp only
  rw [if_pos hstate]
  rw [PromiseOk, hstate] at hpromise
  obtain ⟨hsome, -, hreleased, hreturns, hnone⟩ := hpromise
  have haway : isQueued scheduler.waiters id = false := by
    rw [isQueued, hstate]
    rfl
  refine ⟨⟨?_, fun admissionClass => ?_⟩, ?_, ?_, rfl⟩
  · refine hinv.core.settleAway (fun _ h => (by cases h)) hbound haway ⟨rfl, rfl, rfl, rfl⟩ rfl rfl
      rfl ?_
    rw [hnone]
    refine .inl ⟨rfl, hsome, ?_, queueWaitMs, rfl⟩
    change (scheduler.waiters id).returns = if (scheduler.waiters id).released then 1 else 0
    rw [hreturns, hreleased]
    rfl
  · refine noFit_settle (hinv.noFit admissionClass) ?_ _
    rintro ⟨⟩
  · refine outcomesOf_append.trans ?_
    change outcomesOf scheduler.outcomes id ++ _ = _
    rw [hnone, if_pos rfl]
    rfl
  · change (Function.update scheduler.waiters id _ id).delivered = true
    rw [update_self]

theorem Invariant.eraseMicrotask (index : ℕ) :
    Invariant { scheduler with microtasks := scheduler.microtasks.eraseIdx index } :=
  ⟨⟨hinv.core.lanes, hinv.core.heaps, hinv.core.eligible, hinv.core.budgets, hinv.core.routes,
    hinv.core.promises, hinv.core.exempt_away, hinv.core.outcomes_below, fun entry hentry =>
      hinv.core.microtasks_below entry (mem_of_mem_eraseIdx hentry)⟩, hinv.noFit⟩

theorem Invariant.runMicrotask (index : ℕ) : Invariant (scheduler.runMicrotask index) := by
  unfold GitAdmissionScheduler.runMicrotask
  split
  · exact hinv
  · rename_i id queueWaitMs hdue
    have hbound := hinv.core.microtasks_below _ (mem_of_getElem? hdue)
    by_cases hstate : (scheduler.waiters id).state = .granted
    · exact ((hinv.eraseMicrotask index).deliver_ok hbound queueWaitMs hstate).1
    · rw [GitAdmissionScheduler.deliver, if_neg hstate]
      exact hinv.eraseMicrotask index

theorem Invariant.abort_keeps (id : WaiterId) (clock : ℕ → ℤ) :
    Invariant (scheduler.step (.abort id clock)) ∧
      Keeps (some id) scheduler (scheduler.step (.abort id clock)) := by
  dsimp only [GitAdmissionScheduler.step]
  split_ifs with hbound
  · obtain ⟨hnext, -, -, hkeeps⟩ := hinv.abort_ok hbound clock
    exact ⟨hnext, hkeeps⟩
  · exact ⟨hinv, Keeps.of_same rfl rfl rfl rfl⟩

theorem Invariant.release_keeps (id : WaiterId) (clock : ℕ → ℤ) :
    Invariant (scheduler.step (.release id clock)) ∧
      Keeps none scheduler (scheduler.step (.release id clock)) := by
  dsimp only [GitAdmissionScheduler.step]
  split_ifs with hbound
  · by_cases hdue : (scheduler.waiters id).delivered = true ∧
        (scheduler.waiters id).released = false
    · obtain ⟨hnext, hkeeps, -⟩ := hinv.release_ok hbound clock hdue.1 hdue.2
      exact ⟨hnext, hkeeps⟩
    · rw [release_idle hdue]
      exact ⟨hinv, Keeps.of_same rfl rfl rfl rfl⟩
  · exact ⟨hinv, Keeps.of_same rfl rfl rfl rfl⟩

theorem Invariant.step (action : Action) : Invariant (scheduler.step action) := by
  cases action with
  | acquire request now clock =>
    dsimp only [GitAdmissionScheduler.step]
    cases hsignal : (request.signal.map scheduler.aborted).getD false with
    | true =>
      rw [acquire_aborted hsignal]
      exact hinv
    | false => exact (hinv.acquire_ok request now clock hsignal).1
  | abortSignal signal =>
    have hcore := hinv.core
    exact ⟨⟨hcore.lanes, hcore.heaps, hcore.eligible, hcore.budgets, hcore.routes,
      hcore.promises, hcore.exempt_away, hcore.outcomes_below, hcore.microtasks_below⟩,
      hinv.noFit⟩
  | abort id clock => exact (hinv.abort_keeps id clock).1
  | release id clock => exact (hinv.release_keeps id clock).1
  | microtask index => exact hinv.runMicrotask index

/-- Nobody is turned away but in his own abort, or because his signal was aborted. -/
theorem Invariant.turnedAway (action : Action)
    (hrejected : (id, .rejected) ∈ (scheduler.step action).outcomes) :
    (id, .rejected) ∈ scheduler.outcomes ∨ (∃ clock, action = .abort id clock) ∨
      scheduler.signalAborted id = true := by
  cases action with
  | acquire request now clock =>
    dsimp only [GitAdmissionScheduler.step] at hrejected
    cases hsignal : (request.signal.map scheduler.aborted).getD false with
    | true =>
      rw [acquire_aborted hsignal] at hrejected
      exact .inl hrejected
    | false =>
      obtain ⟨-, -, hkeeps⟩ := hinv.acquire_ok request now clock hsignal
      obtain ⟨-, -, -, -, -, -, houtcomes⟩ := hinv.core.enqueueWaiter request now
      obtain hbefore | ⟨-, hturned | hnobody⟩ := hkeeps.outcomes _ _ hrejected
      · exact .inl (houtcomes ▸ hbefore)
      · exact .inr (.inr (hinv.enqueued_aborted hsignal hturned).2)
      · cases hnobody
  | abortSignal signal => exact .inl hrejected
  | abort other clock =>
    obtain hbefore | ⟨-, hturned | hself⟩ := (hinv.abort_keeps other clock).2.outcomes _ _ hrejected
    · exact .inl hbefore
    · exact .inr (.inr hturned)
    · cases hself
      exact .inr (.inl ⟨clock, rfl⟩)
  | release other clock =>
    obtain hbefore | ⟨-, hturned | hnobody⟩ :=
      (hinv.release_keeps other clock).2.outcomes _ _ hrejected
    · exact .inl hbefore
    · exact .inr (.inr hturned)
    · cases hnobody
  | microtask index =>
    dsimp only [GitAdmissionScheduler.step, GitAdmissionScheduler.runMicrotask] at hrejected
    split at hrejected
    · exact .inl hrejected
    · unfold GitAdmissionScheduler.deliver at hrejected
      dsimp only at hrejected
      split_ifs at hrejected
      · refine .inl ((mem_append.mp hrejected).resolve_right fun hnew => ?_)
        cases mem_singleton.mp hnew
      · exact .inl hrejected

/-- A granted waiter keeps its microtask. -/
theorem Invariant.told (htold : Told scheduler) (action : Action) :
    Told (scheduler.step action) := by
  cases action with
  | acquire request now clock =>
    dsimp only [GitAdmissionScheduler.step]
    cases hsignal : (request.signal.map scheduler.aborted).getD false with
    | true =>
      rw [acquire_aborted hsignal]
      exact htold
    | false =>
      obtain ⟨-, -, hkeeps⟩ := hinv.acquire_ok request now clock hsignal
      obtain ⟨-, -, hwaiters, -, -, hmicrotasks, -⟩ := hinv.core.enqueueWaiter request now
      refine hkeeps.told fun id hgranted => ?_
      rw [hwaiters] at hgranted
      rw [hmicrotasks]
      by_cases heq : id = scheduler.nextWaiterId
      · rw [heq, update_self] at hgranted
        cases hgranted
      · rw [update_of_ne heq] at hgranted
        exact htold id hgranted
  | abortSignal signal => exact htold
  | abort id clock => exact (hinv.abort_keeps id clock).2.told htold
  | release id clock => exact (hinv.release_keeps id clock).2.told htold
  | microtask index =>
    dsimp only [GitAdmissionScheduler.step, GitAdmissionScheduler.runMicrotask]
    split
    · exact htold
    rename_i id queueWaitMs hdue
    intro other hother
    have hkept : other ≠ id → (scheduler.waiters other).state = .granted →
        ∃ waitMs, (other, waitMs) ∈ scheduler.microtasks.eraseIdx index := by
      intro hne hgranted
      obtain ⟨waitMs, hentry⟩ := htold other hgranted
      obtain ⟨place, hplace⟩ := mem_iff_getElem?.mp hentry
      refine ⟨waitMs, mem_eraseIdx_iff_getElem?.mpr ⟨place, fun heq => ?_, hplace⟩⟩
      rw [heq, hdue] at hplace
      cases hplace
      exact hne rfl
    unfold GitAdmissionScheduler.deliver at hother ⊢
    dsimp only at hother ⊢
    split_ifs at hother ⊢ with hstate
    · have hne : other ≠ id := by
        rintro rfl
        change (Function.update scheduler.waiters other _ other).state = _ at hother
        rw [update_self] at hother
        cases hother
      change (Function.update scheduler.waiters id _ other).state = _ at hother
      rw [update_of_ne hne] at hother
      exact hkept hne hother
    · refine hkept ?_ hother
      rintro rfl
      exact hstate hother

theorem Invariant.run (htold : Told scheduler) (actions : List Action) :
    Invariant (scheduler.run actions) ∧ Told (scheduler.run actions) := by
  induction actions generalizing scheduler with
  | nil => exact ⟨hinv, htold⟩
  | cons action actions ih => exact ih (hinv.step action) (hinv.told htold action)

end

end Steps

section Runs

variable {scheduler : GitAdmissionScheduler}

theorem Invariant.initial (config : AdmissionSchedulerConfig) :
    Invariant (GitAdmissionScheduler.initial config) := by
  have hnobody : ∀ {property : WaiterId → Prop}, ∀ id < 0, property id :=
    fun id hid => absurd hid (Nat.not_lt_zero id)
  have hlanes : LanesOk (GitAdmissionScheduler.initial config).waiters 0
      (isQueued (GitAdmissionScheduler.initial config).waiters) emptyQueue :=
    ⟨fun _ _ _ h => (by cases h), fun _ _ => nodup_nil, fun _ _ _ h => (by cases h),
      fun _ _ => rfl, hnobody, rfl, fun _ => rfl⟩
  have hheaps : HeapsOk (GitAdmissionScheduler.initial config).waiters emptyQueue none :=
    ⟨fun _ _ _ h => (by cases h), fun _ _ h => (by cases h), fun _ _ _ h => (by cases h)⟩
  have hbudgets : BudgetsOk config (fun _ => none)
      (GitAdmissionScheduler.initial config).waiters 0 := by
    refine ⟨fun key slotKind => ?_, fun _ _ => rfl, fun key slotKind => ?_⟩
    · exact used_newBudget config key slotKind
    · have hunused : (budgetIn config (fun _ => none) key).used slotKind = 0 :=
        used_newBudget config key slotKind
      rw [hunused]
      exact Nat.zero_le _
  exact ⟨⟨hlanes, hheaps, fun _ _ _ h => (by cases h), hbudgets, fun _ _ _ h => (by cases h),
    hnobody, fun _ h => (by cases h), fun _ h => (by cases h), fun _ h => (by cases h)⟩,
    fun _ => hnobody⟩

structure AdmissionSafe (scheduler : GitAdmissionScheduler) : Prop where
  /-- A budget counts the waiters that were granted a slot of it and did not return it. -/
  used : ∀ key slotKind, (scheduler.budgetOf key).used slotKind =
    CountBelow.count (holds scheduler.waiters key slotKind) scheduler.nextWaiterId
  capacity : ∀ key slotKind, (scheduler.budgetOf key).used slotKind ≤
    (newBudget scheduler.config key).capacity slotKind
  settledOnce : ∀ id, (outcomesOf scheduler.outcomes id).length ≤ 1
  /-- A waiter that was told of its slot returned it where it was released, any other one where
  it was turned away after a grant. -/
  returned : ∀ id < scheduler.nextWaiterId, (scheduler.waiters id).returns =
    if (scheduler.waiters id).delivered then (if (scheduler.waiters id).released then 1 else 0)
    else if (scheduler.waiters id).state = .settled ∧ (scheduler.waiters id).slotKind.isSome
      then 1 else 0
  granted : ∀ id < scheduler.nextWaiterId, (scheduler.waiters id).state = .granted ∨
    (scheduler.waiters id).delivered = true → (scheduler.waiters id).slotKind.isSome = true
  /-- A request becomes a waiter of its own, unless its signal is aborted. -/
  acquires : ∀ request now clock, (request.signal.map scheduler.aborted).getD false = false →
    let next := scheduler.step (.acquire request now clock)
    next.nextWaiterId = scheduler.nextWaiterId + 1 ∧
      SamePlace (newWaiter request now) (next.waiters scheduler.nextWaiterId) ∧
      outcomesOf next.outcomes scheduler.nextWaiterId = []
  told : Told scheduler
  /-- The microtask of a granted waiter settles its promise and moves no slot. -/
  delivers : ∀ index id queueWaitMs, scheduler.microtasks[index]? = some (id, queueWaitMs) →
    (scheduler.waiters id).state = .granted →
    let next := scheduler.step (.microtask index)
    outcomesOf next.outcomes id = [(id, .resolved queueWaitMs)] ∧
      (next.waiters id).delivered = true ∧ next.budgets = scheduler.budgets
  /-- The first release after the delivery ends the hold. -/
  releases : ∀ id < scheduler.nextWaiterId, ∀ clock, (scheduler.waiters id).delivered = true →
    (scheduler.waiters id).released = false →
    let next := scheduler.step (.release id clock)
    (next.waiters id).released = true ∧
      ∀ key slotKind, holds next.waiters key slotKind id = false
  releasedOnce : ∀ id clock, (scheduler.waiters id).released = true ∨
    (scheduler.waiters id).delivered = false → scheduler.step (.release id clock) = scheduler
  turnedAway : ∀ action id, (id, .rejected) ∈ (scheduler.step action).outcomes →
    (id, .rejected) ∈ scheduler.outcomes ∨ (∃ clock, action = .abort id clock) ∨
      scheduler.signalAborted id = true
  /-- A waiter that was turned away holds nothing. -/
  rejected : ∀ id, (id, .rejected) ∈ scheduler.outcomes →
    ∀ key slotKind, holds scheduler.waiters key slotKind id = false
  /-- An abort turns away every waiter that was not told of a slot. -/
  aborted : ∀ id < scheduler.nextWaiterId, ∀ clock, (scheduler.waiters id).delivered = false →
    let next := scheduler.step (.abort id clock)
    outcomesOf next.outcomes id = [(id, .rejected)] ∧
      ∀ key slotKind, holds next.waiters key slotKind id = false
  noFit : ∀ id < scheduler.nextWaiterId, (scheduler.waiters id).state = .queued →
    scheduler.fits (scheduler.waiters id) .base = false ∧
      ((scheduler.waiters id).tier = .interactive →
        scheduler.fits (scheduler.waiters id) .headroom = false)
  routeBudgets : ∀ admissionClass route,
    (scheduler.budgets (.ofRoute admissionClass route)).isSome → ∃ id < scheduler.nextWaiterId,
        BudgetKey.ofRoute admissionClass route ∈ (scheduler.waiters id).budgetKeys ∧
          ((scheduler.waiters id).state = .queued ∨
            ∃ slotKind, holds scheduler.waiters (.ofRoute admissionClass route) slotKind id = true)

variable {outcomes : List (WaiterId × Outcome)}

theorem PromiseOk.counts {id : WaiterId} {waiter : AdmissionWaiter}
    (hpromise : PromiseOk id waiter outcomes) : outcomes.length ≤ 1 ∧
      (waiter.returns = if waiter.delivered then (if waiter.released then 1 else 0)
        else if waiter.state = .settled ∧ waiter.slotKind.isSome then 1 else 0) ∧
      (waiter.state = .granted ∨ waiter.delivered = true → waiter.slotKind.isSome = true) := by
  rw [PromiseOk] at hpromise
  cases hstate : waiter.state with
  | queued =>
    rw [hstate] at hpromise
    obtain ⟨-, hdelivered, -, hreturns, hnone⟩ := hpromise
    rw [hdelivered, hreturns, hnone]
    exact ⟨Nat.zero_le _, by simp, by simp⟩
  | granted =>
    rw [hstate] at hpromise
    obtain ⟨hsome, hdelivered, -, hreturns, hnone⟩ := hpromise
    rw [hdelivered, hreturns, hnone]
    exact ⟨Nat.zero_le _, by simp, fun _ => hsome⟩
  | settled =>
    rw [hstate] at hpromise
    obtain ⟨hdelivered, hsome, hreturns, queueWaitMs, hone⟩ | ⟨hdelivered, hreturns, hone⟩ :=
      hpromise
    · rw [hdelivered, hreturns, hone]
      exact ⟨Nat.le_refl _, by simp, fun _ => hsome⟩
    · rw [hdelivered, hreturns, hone]
      exact ⟨Nat.le_refl _, by simp, by simp⟩

theorem holds_returned {waiters : WaiterId → AdmissionWaiter} {id : WaiterId}
    (hreturns : (waiters id).returns = 1) (key : BudgetKey) (slotKind : AdmissionSlotKind) :
    holds waiters key slotKind id = false := by
  rw [holds, hreturns]
  exact (Bool.and_assoc _ _ _).trans (Bool.and_false _)

/-- A waiter whose promise was rejected returned the slot it had, if it had one. -/
theorem PromiseOk.rejected {waiters : WaiterId → AdmissionWaiter} {id : WaiterId}
    (hpromise : PromiseOk id (waiters id) outcomes) (hrejected : (id, .rejected) ∈ outcomes)
    (key : BudgetKey) (slotKind : AdmissionSlotKind) :
    holds waiters key slotKind id = false := by
  rw [PromiseOk] at hpromise
  cases hstate : (waiters id).state with
  | queued =>
    rw [hstate] at hpromise
    rw [hpromise.2.2.2.2] at hrejected
    cases hrejected
  | granted =>
    rw [hstate] at hpromise
    rw [hpromise.2.2.2.2] at hrejected
    cases hrejected
  | settled =>
    rw [hstate] at hpromise
    obtain ⟨-, -, -, queueWaitMs, hone⟩ | ⟨-, hreturns, -⟩ := hpromise
    · rw [hone] at hrejected
      cases mem_singleton.mp hrejected
    · rw [holds, hreturns]
      cases (waiters id).slotKind with
      | none => rfl
      | some other => exact (Bool.and_assoc _ _ _).trans (Bool.and_false _)

theorem Invariant.routeBudget_held (hinv : Invariant scheduler) {admissionClass : AdmissionClass}
    {route : Route} (hsome : (scheduler.budgets (.ofRoute admissionClass route)).isSome) :
    ∃ id < scheduler.nextWaiterId,
      BudgetKey.ofRoute admissionClass route ∈ (scheduler.waiters id).budgetKeys ∧
        ((scheduler.waiters id).state = .queued ∨
          ∃ slotKind, holds scheduler.waiters (.ofRoute admissionClass route) slotKind id =
            true) := by
  have hheld : ∀ slotKind, (budgetIn scheduler.config scheduler.budgets
      (.ofRoute admissionClass route)).used slotKind ≠ 0 → ∃ id < scheduler.nextWaiterId,
          BudgetKey.ofRoute admissionClass route ∈ (scheduler.waiters id).budgetKeys ∧
            holds scheduler.waiters (.ofRoute admissionClass route) slotKind id = true := by
    intro slotKind hused
    rw [hinv.core.budgets.used] at hused
    obtain ⟨id, hid, hholds⟩ := CountBelow.exists_of_count_ne_zero hused
    have hmem := hholds
    rw [holds, Bool.and_eq_true, decide_eq_true_eq] at hmem
    exact ⟨id, hid, hmem.2, hholds⟩
  obtain hused | hwaited := hinv.core.routes admissionClass route not_mem_nil hsome
  · have heither : ∃ slotKind, (budgetIn scheduler.config scheduler.budgets
        (.ofRoute admissionClass route)).used slotKind ≠ 0 := by
      by_contra hzero
      push Not at hzero
      rw [isUnused_iff.mpr hzero] at hused
      cases hused
    obtain ⟨slotKind, hne⟩ := heither
    obtain ⟨id, hid, hmem, hholds⟩ := hheld slotKind hne
    exact ⟨id, hid, hmem, .inr ⟨slotKind, hholds⟩⟩
  · rw [hinv.core.lanes.counts] at hwaited
    obtain ⟨id, hid, hqueued⟩ := CountBelow.exists_of_count_ne_zero hwaited
    rw [Bool.and_eq_true, decide_eq_true_eq] at hqueued
    exact ⟨id, hid, hqueued.2, .inl (isQueued_iff.mp hqueued.1)⟩

/-- The invariant says everything admission promises. -/
theorem Invariant.safe (hinv : Invariant scheduler) (htold : Told scheduler) :
    AdmissionSafe scheduler := by
  have hpromise : ∀ id < scheduler.nextWaiterId,
      PromiseOk id (scheduler.waiters id) (outcomesOf scheduler.outcomes id) :=
    fun id hid => hinv.core.promises id hid (fun h => (by cases h))
  refine
    { used := hinv.core.budgets.used
      capacity := fun key slotKind => ?_
      settledOnce := fun id => ?_
      returned := fun id hid => (hpromise id hid).counts.2.1
      granted := fun id hid => (hpromise id hid).counts.2.2
      acquires := fun request now clock hsignal => ?_
      told := htold
      delivers := fun index id queueWaitMs hdue hstate => ?_
      releases := fun id hid clock hdelivered hreleased => ?_
      releasedOnce := fun id clock hidle => ?_
      turnedAway := fun action id => hinv.turnedAway action
      rejected := fun id hrejected => ?_
      aborted := fun id hid clock hdelivered => ?_
      noFit := fun id hid hstate => hinv.noFit _ id hid (isQueued_iff.mpr hstate) rfl
      routeBudgets := fun _ _ hsome => hinv.routeBudget_held hsome }
  · rw [← hinv.core.budgets.capacity key slotKind]
    exact hinv.core.budgets.bounded key slotKind
  · by_cases hid : id < scheduler.nextWaiterId
    · exact (hpromise id hid).counts.1
    · have hnone : outcomesOf scheduler.outcomes id = [] := by
        refine filter_eq_nil_iff.mpr fun entry hentry heq => hid ?_
        rw [← beq_iff_eq.mp heq]
        exact hinv.core.outcomes_below entry hentry
      rw [hnone]
      exact Nat.zero_le _
  · exact ⟨(hinv.acquire_ok request now clock hsignal).2.1,
      hinv.acquired request now clock hsignal⟩
  · intro next
    have hnext : next = { scheduler with
        microtasks := scheduler.microtasks.eraseIdx index }.deliver id queueWaitMs := by
      change scheduler.runMicrotask index = _
      rw [GitAdmissionScheduler.runMicrotask, hdue]
    rw [hnext]
    exact ((hinv.eraseMicrotask index).deliver_ok (hinv.core.microtasks_below _
      (mem_of_getElem? hdue)) queueWaitMs hstate).2
  · intro next
    have hnext : next = scheduler.release id clock := if_pos hid
    obtain ⟨-, -, hdone, hreturns⟩ := hinv.release_ok hid clock hdelivered hreleased
    rw [hnext]
    exact ⟨hdone, holds_returned hreturns⟩
  · refine ite_eq_right_iff.mpr fun _ => release_idle ?_ clock
    rintro ⟨hdelivered, hreleased⟩
    rw [hdelivered, hreleased] at hidle
    exact hidle.elim Bool.false_ne_true Bool.noConfusion
  · refine (hpromise id (hinv.core.outcomes_below _ hrejected)).rejected ?_
    exact mem_filter.mpr ⟨hrejected, beq_self_eq_true id⟩
  · intro next
    have hnext : next = scheduler.abort id clock := if_pos hid
    obtain ⟨hafter, hbound, hsettles, -⟩ := hinv.abort_ok hid clock
    rw [← hnext] at hafter hbound hsettles
    obtain ⟨hone, -, -⟩ := hsettles hdelivered
    refine ⟨hone, (hafter.core.promises id (hbound ▸ hid) (fun h => (by cases h))).rejected ?_⟩
    rw [hone]
    exact mem_singleton_self _

/-- Whatever is acquired, aborted, released and delivered in whatever order, no slot leaks and
none stays free while a waiter fits it. -/
theorem admission_leaks_nothing (config : AdmissionSchedulerConfig) (actions : List Action) :
    AdmissionSafe ((GitAdmissionScheduler.initial config).run actions) :=
  let hrun := (Invariant.initial config).run (fun _ h => (by cases h)) actions
  hrun.1.safe hrun.2

end Runs

end Wakii.GitAdmission
