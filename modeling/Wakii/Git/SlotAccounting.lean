import Wakii.Git.AdmissionScheduler
import Wakii.Git.QueueDeparture

/-!
# The accounting of the slots

A budget counts the waiters that were granted a slot of it and have not given
it back.  Making a budget, or dropping one that nobody uses, changes no count.
-/

namespace Wakii.GitAdmission

open Function

open WaiterQueue (isQueued LanesOk HeapsOk EligibleOk EligibleBut Leaving)

section Budgets

variable {config : AdmissionSchedulerConfig} {budgets : BudgetKey → Option AdmissionBudget}
  {waiters : WaiterId → AdmissionWaiter} {bound : ℕ} {counts : BudgetKey → ℕ}

/-- The waiter holds a slot of the budget: it was granted one and has not given it back. -/
def holds (waiters : WaiterId → AdmissionWaiter) (key : BudgetKey) (slotKind : AdmissionSlotKind)
    (id : WaiterId) : Bool :=
  (waiters id).slotKind == some slotKind && (waiters id).returns == 0 &&
    decide (key ∈ (waiters id).budgetKeys)

def budgetIn (config : AdmissionSchedulerConfig) (budgets : BudgetKey → Option AdmissionBudget)
    (key : BudgetKey) : AdmissionBudget :=
  (budgets key).getD (GitAdmissionScheduler.newBudget config key)

structure BudgetsOk (config : AdmissionSchedulerConfig)
    (budgets : BudgetKey → Option AdmissionBudget) (waiters : WaiterId → AdmissionWaiter)
    (bound : ℕ) : Prop where
  used : ∀ key slotKind, (budgetIn config budgets key).used slotKind =
    CountBelow.count (holds waiters key slotKind) bound
  capacity : ∀ key slotKind, (budgetIn config budgets key).capacity slotKind =
    (GitAdmissionScheduler.newBudget config key).capacity slotKind
  bounded : ∀ key slotKind, (budgetIn config budgets key).used slotKind ≤
    (budgetIn config budgets key).capacity slotKind

/-- A route budget is there only while it is used or waited on, but for some keys. -/
def RoutesBut (config : AdmissionSchedulerConfig)
    (budgets : BudgetKey → Option AdmissionBudget) (counts : BudgetKey → ℕ)
    (exempt : List BudgetKey) : Prop :=
  ∀ admissionClass route, BudgetKey.ofRoute admissionClass route ∉ exempt →
    (budgets (.ofRoute admissionClass route)).isSome →
      (budgetIn config budgets (.ofRoute admissionClass route)).isUnused = false ∨
        counts (.ofRoute admissionClass route) ≠ 0

@[simp] theorem used_take (budget : AdmissionBudget) (slotKind other : AdmissionSlotKind) :
    (budget.take slotKind).used other = budget.used other + if other = slotKind then 1 else 0 := by
  cases slotKind <;> cases other <;> rfl

@[simp] theorem used_giveBack (budget : AdmissionBudget) (slotKind other : AdmissionSlotKind) :
    (budget.giveBack slotKind).used other =
      budget.used other - if other = slotKind then 1 else 0 := by
  cases slotKind <;> cases other <;> rfl

@[simp] theorem capacity_take (budget : AdmissionBudget) (slotKind other : AdmissionSlotKind) :
    (budget.take slotKind).capacity other = budget.capacity other := by
  cases slotKind <;> cases other <;> rfl

@[simp] theorem capacity_giveBack (budget : AdmissionBudget) (slotKind other : AdmissionSlotKind) :
    (budget.giveBack slotKind).capacity other = budget.capacity other := by
  cases slotKind <;> cases other <;> rfl

@[simp] theorem used_newBudget (config : AdmissionSchedulerConfig) (key : BudgetKey)
    (slotKind : AdmissionSlotKind) :
    (GitAdmissionScheduler.newBudget config key).used slotKind = 0 := by
  cases key with
  | ofRoute admissionClass route => cases slotKind <;> rfl
  | ofClass admissionClass => cases admissionClass <;> cases slotKind <;> rfl

theorem isUnused_iff {budget : AdmissionBudget} :
    budget.isUnused = true ↔ ∀ slotKind, budget.used slotKind = 0 := by
  rw [AdmissionBudget.isUnused, Bool.and_eq_true, beq_iff_eq, beq_iff_eq]
  refine ⟨fun h slotKind => ?_, fun h => ⟨h .base, h .headroom⟩⟩
  cases slotKind with
  | base => exact h.1
  | headroom => exact h.2

theorem budget_ext {left right : AdmissionBudget}
    (hused : ∀ slotKind, left.used slotKind = right.used slotKind)
    (hcapacity : ∀ slotKind, left.capacity slotKind = right.capacity slotKind) : left = right := by
  obtain ⟨lb, lh, lbu, lhu⟩ := left
  obtain ⟨rb, rh, rbu, rhu⟩ := right
  have h1 : lbu = rbu := hused .base
  have h2 : lhu = rhu := hused .headroom
  have h3 : lb = rb := hcapacity .base
  have h4 : lh = rh := hcapacity .headroom
  rw [h1, h2, h3, h4]

theorem budgetKeys_nodup (waiter : AdmissionWaiter) : waiter.budgetKeys.Nodup := by
  rw [AdmissionWaiter.budgetKeys]
  cases waiter.route <;> simp

end Budgets

section Rewrites

variable {scheduler : GitAdmissionScheduler}

open GitAdmissionScheduler

/-- What is free on a route; without one, everything is. -/
def GitAdmissionScheduler.elig (scheduler : GitAdmissionScheduler)
    (admissionClass : AdmissionClass) (route : Option Route)
    (slotKind : AdmissionSlotKind) : Bool :=
  match route with
  | none => true
  | some name => (scheduler.budgetOf (.ofRoute admissionClass name)).hasFree slotKind

theorem budgetOf_eq (key : BudgetKey) :
    scheduler.budgetOf key = budgetIn scheduler.config scheduler.budgets key := rfl

/-- A round of writes to some budgets touches each of them once and nothing else. -/
theorem foldl_updateBudget (write : AdmissionBudget → AdmissionBudget) {keys : List BudgetKey}
    (hkeys : keys.Nodup) :
    ∃ budgets, keys.foldl (fun current key => current.updateBudget write key) scheduler =
        { scheduler with budgets } ∧
      (∀ key, budgetIn scheduler.config budgets key =
        if key ∈ keys then write (scheduler.budgetOf key) else scheduler.budgetOf key) ∧
      ∀ key, (budgets key).isSome → (scheduler.budgets key).isSome ∨ key ∈ keys := by
  induction keys generalizing scheduler with
  | nil => exact ⟨scheduler.budgets, rfl, fun key => rfl, fun key h => .inl h⟩
  | cons first rest ih =>
    obtain ⟨hfirst, hrest⟩ := List.nodup_cons.mp hkeys
    obtain ⟨budgets, hresult, hvalues, hdomain⟩ := @ih (scheduler.updateBudget write first) hrest
    refine ⟨budgets, hresult, fun key => ?_, fun key hsome => ?_⟩
    · have hvalue := hvalues key
      have hwritten : (scheduler.updateBudget write first).budgetOf key =
          if key = first then write (scheduler.budgetOf key) else scheduler.budgetOf key := by
        rw [budgetOf_eq, budgetIn, updateBudget, setBudget]
        by_cases heq : key = first
        · rw [if_pos heq, heq]
          simp
        · rw [if_neg heq]
          simp only [update_of_ne heq]
          rfl
      have hconfig : (scheduler.updateBudget write first).config = scheduler.config := rfl
      rw [hconfig, hwritten] at hvalue
      rw [hvalue]
      by_cases heq : key = first
      · rw [heq, if_neg hfirst, if_pos rfl, if_pos List.mem_cons_self]
      · simp [heq]
    · cases hdomain key hsome with
      | inr hmem => exact .inr (List.mem_cons_of_mem first hmem)
      | inl hold =>
        by_cases heq : key = first
        · exact .inr (heq ▸ List.mem_cons_self)
        · rw [updateBudget, setBudget] at hold
          simp only [update_of_ne heq] at hold
          exact .inl hold

theorem takeSlots_ok (slotKind : AdmissionSlotKind) {keys : List BudgetKey} (hkeys : keys.Nodup) :
    ∃ budgets, scheduler.takeSlots slotKind keys = { scheduler with budgets } ∧
      (∀ key, budgetIn scheduler.config budgets key =
        if key ∈ keys then (scheduler.budgetOf key).take slotKind else scheduler.budgetOf key) ∧
      ∀ key, (budgets key).isSome → (scheduler.budgets key).isSome ∨ key ∈ keys :=
  foldl_updateBudget (fun budget => budget.take slotKind) hkeys

theorem giveBackSlots_ok (slotKind : AdmissionSlotKind) {keys : List BudgetKey}
    (hkeys : keys.Nodup) :
    ∃ budgets, scheduler.giveBackSlots slotKind keys = { scheduler with budgets } ∧
      (∀ key, budgetIn scheduler.config budgets key =
        if key ∈ keys then (scheduler.budgetOf key).giveBack slotKind
        else scheduler.budgetOf key) ∧
      ∀ key, (budgets key).isSome → (scheduler.budgets key).isSome ∨ key ∈ keys :=
  foldl_updateBudget (fun budget => budget.giveBack slotKind) hkeys

theorem ensureBudgets_ok {keys : List BudgetKey} (hkeys : keys.Nodup) :
    ∃ budgets, scheduler.ensureBudgets keys = { scheduler with budgets } ∧
      (∀ key, budgetIn scheduler.config budgets key = scheduler.budgetOf key) ∧
      ∀ key, (budgets key).isSome → (scheduler.budgets key).isSome ∨ key ∈ keys := by
  obtain ⟨budgets, hresult, hvalues, hdomain⟩ :=
    @foldl_updateBudget scheduler (fun budget => budget) keys hkeys
  refine ⟨budgets, hresult, fun key => ?_, hdomain⟩
  rw [hvalues key]
  split <;> rfl

variable {waiters : WaiterId → AdmissionWaiter} {bound : ℕ} {config : AdmissionSchedulerConfig}

theorem BudgetsOk.congr {budgets others : BudgetKey → Option AdmissionBudget}
    (hbudgets : BudgetsOk config budgets waiters bound)
    (hsame : ∀ key, budgetIn config others key = budgetIn config budgets key) :
    BudgetsOk config others waiters bound :=
  ⟨fun key slotKind => by rw [hsame key]; exact hbudgets.used key slotKind,
    fun key slotKind => by rw [hsame key]; exact hbudgets.capacity key slotKind,
    fun key slotKind => by rw [hsame key]; exact hbudgets.bounded key slotKind⟩

theorem budgetIn_unused {budgets : BudgetKey → Option AdmissionBudget} {key : BudgetKey}
    (hbudgets : BudgetsOk config budgets waiters bound)
    (hunused : (budgetIn config budgets key).isUnused = true) :
    newBudget config key = budgetIn config budgets key := by
  refine budget_ext (fun slotKind => ?_) fun slotKind => (hbudgets.capacity key slotKind).symm
  rw [used_newBudget, isUnused_iff.mp hunused slotKind]

/-- A route's budget goes once nothing waits or runs on it. -/
theorem pruneRouteBudget_ok {key : BudgetKey} {rest : List BudgetKey}
    (hbudgets : BudgetsOk scheduler.config scheduler.budgets waiters bound)
    (hroutes : RoutesBut scheduler.config scheduler.budgets scheduler.queue.countsByBudget
      (key :: rest)) :
    ∃ budgets, scheduler.pruneRouteBudget key = { scheduler with budgets } ∧
      (∀ other, budgetIn scheduler.config budgets other = scheduler.budgetOf other) ∧
      RoutesBut scheduler.config budgets scheduler.queue.countsByBudget rest := by
  have hother : ∀ admissionClass route, BudgetKey.ofRoute admissionClass route ≠ key →
      BudgetKey.ofRoute admissionClass route ∉ rest →
      (scheduler.budgets (.ofRoute admissionClass route)).isSome →
      (budgetIn scheduler.config scheduler.budgets (.ofRoute admissionClass route)).isUnused =
          false ∨ scheduler.queue.countsByBudget (.ofRoute admissionClass route) ≠ 0 :=
    fun admissionClass route hne hrest => hroutes admissionClass route (by simp [hne, hrest])
  unfold pruneRouteBudget
  split
  next admissionClass route budget hbudget =>
    have hvalue : budgetIn scheduler.config scheduler.budgets (.ofRoute admissionClass route) =
        budget := by
      rw [budgetIn, hbudget]
      rfl
    split
    next hidle =>
      rw [Bool.and_eq_true] at hidle
      have hnew := budgetIn_unused hbudgets (hvalue ▸ hidle.1)
      refine ⟨Function.update scheduler.budgets (.ofRoute admissionClass route) none, rfl,
        fun other => ?_, fun otherClass otherRoute hrest hsome => ?_⟩
      · rw [budgetIn]
        by_cases heq : other = .ofRoute admissionClass route
        · rw [heq, update_self]
          exact hnew
        · rw [update_of_ne heq]
          rfl
      · by_cases heq : BudgetKey.ofRoute otherClass otherRoute = .ofRoute admissionClass route
        · rw [heq, update_self] at hsome
          cases hsome
        · rw [update_of_ne heq] at hsome
          rw [budgetIn, update_of_ne heq]
          exact hother otherClass otherRoute heq hrest hsome
    next hbusy =>
      refine ⟨scheduler.budgets, rfl, fun other => rfl, fun otherClass otherRoute hrest hsome => ?_⟩
      by_cases heq : BudgetKey.ofRoute otherClass otherRoute = .ofRoute admissionClass route
      · rw [heq, hvalue]
        cases hcase : budget.isUnused with
        | false => exact .inl rfl
        | true =>
          refine .inr fun hzero => hbusy ?_
          rw [hcase, WaiterQueue.hasBudget, hzero]
          rfl
      · exact hother otherClass otherRoute heq hrest hsome
  next hnone =>
    refine ⟨scheduler.budgets, rfl, fun other => rfl, fun otherClass otherRoute hrest hsome => ?_⟩
    refine hother otherClass otherRoute (fun heq => ?_) hrest hsome
    obtain ⟨budget, hbudget⟩ := Option.isSome_iff_exists.mp hsome
    exact hnone otherClass otherRoute budget heq.symm (heq ▸ hbudget)

theorem pruneRouteBudgets_ok {keys : List BudgetKey}
    (hbudgets : BudgetsOk scheduler.config scheduler.budgets waiters bound)
    (hroutes : RoutesBut scheduler.config scheduler.budgets scheduler.queue.countsByBudget keys) :
    ∃ budgets, scheduler.pruneRouteBudgets keys = { scheduler with budgets } ∧
      (∀ key, budgetIn scheduler.config budgets key = scheduler.budgetOf key) ∧
      RoutesBut scheduler.config budgets scheduler.queue.countsByBudget [] := by
  induction keys generalizing scheduler with
  | nil => exact ⟨scheduler.budgets, rfl, fun key => rfl, hroutes⟩
  | cons first rest ih =>
    obtain ⟨budgets, hresult, hvalues, hleft⟩ := pruneRouteBudget_ok hbudgets hroutes
    obtain ⟨pruned, hpruned, hprunedValues, hnone⟩ :=
      @ih { scheduler with budgets } (hbudgets.congr hvalues) hleft
    refine ⟨pruned, ?_, fun key => (hprunedValues key).trans (hvalues key), hnone⟩
    rw [pruneRouteBudgets, List.foldl_cons, hresult]
    exact hpruned

/-- A refresh makes the lanes of the route agree with the budget it now has. -/
theorem refreshRouteEligibility_ok {counted : WaiterId → Bool} {admissionClass : AdmissionClass}
    {route : Option Route} (hlanes : LanesOk scheduler.waiters bound counted scheduler.queue)
    (hheaps : HeapsOk scheduler.waiters scheduler.queue none)
    (hbut : EligibleBut scheduler.queue (scheduler.elig) admissionClass route TIERS) :
    ∃ budgets queue, scheduler.refreshRouteEligibility admissionClass route =
        { scheduler with budgets, queue } ∧
      (∀ key, budgetIn scheduler.config budgets key = scheduler.budgetOf key) ∧
      (∀ key, (budgets key).isSome → (scheduler.budgets key).isSome ∨
        key ∈ route.toList.map (.ofRoute admissionClass)) ∧
      LanesOk scheduler.waiters bound counted queue ∧ HeapsOk scheduler.waiters queue none ∧
      EligibleOk queue scheduler.elig ∧ queue.countsByBudget = scheduler.queue.countsByBudget ∧
      queue.totalCount = scheduler.queue.totalCount := by
  cases route with
  | none =>
    obtain ⟨hl, hh, he, hr⟩ :=
      WaiterQueue.updateRouteEligibility_ok true true hlanes hheaps rfl rfl hbut
    exact ⟨scheduler.budgets, _, rfl, fun key => rfl, fun key h => .inl h, hl, hh, he,
      hr.countsByBudget, hr.totalCount⟩
  | some name =>
    obtain ⟨hl, hh, he, hr⟩ := WaiterQueue.updateRouteEligibility_ok
      ((scheduler.budgetOf (.ofRoute admissionClass name)).hasFree .base)
      ((scheduler.budgetOf (.ofRoute admissionClass name)).hasFree .headroom)
      hlanes hheaps rfl rfl hbut
    refine ⟨Function.update scheduler.budgets (.ofRoute admissionClass name)
      (some (scheduler.budgetOf (.ofRoute admissionClass name))), _, rfl, fun key => ?_,
      fun key hsome => ?_, hl, hh, he, hr.countsByBudget, hr.totalCount⟩
    · rw [budgetIn]
      by_cases heq : key = .ofRoute admissionClass name
      · rw [heq, update_self]
        rfl
      · rw [update_of_ne heq]
        rfl
    · by_cases heq : key = .ofRoute admissionClass name
      · exact .inr (by simp [heq])
      · rw [update_of_ne heq] at hsome
        exact .inl hsome

end Rewrites

end Wakii.GitAdmission
