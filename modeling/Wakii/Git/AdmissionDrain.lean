import Wakii.Git.AdmissionSteps

/-!
# What a drain leaves

A drain grants slots until no queued waiter of its class fits one.  It ends
because every round takes a waiter out of the queue.
-/

namespace Wakii.GitAdmission

open WaiterQueue (isQueued LanesOk HeapsOk EligibleOk EligibleBut SameLanes SelectedWaiter)
open GitAdmissionScheduler

variable {scheduler : GitAdmissionScheduler} {exempt : Option WaiterId}
  {admissionClass : AdmissionClass}

theorem firstSelected_mem (effectiveTier : WaiterId → ℤ) {candidates : List SelectedWaiter}
    {selected : SelectedWaiter}
    (hfirst : WaiterQueue.firstSelected effectiveTier candidates = some selected) :
    selected ∈ candidates := by
  induction candidates generalizing selected with
  | nil => cases hfirst
  | cons candidate rest ih =>
    rw [WaiterQueue.firstSelected] at hfirst
    cases hrest : WaiterQueue.firstSelected effectiveTier rest with
    | none =>
      rw [hrest] at hfirst
      cases hfirst
      exact List.mem_cons_self
    | some other =>
      rw [hrest] at hfirst
      dsimp only at hfirst
      split at hfirst
      · cases hfirst
        exact List.mem_cons_of_mem candidate (ih hrest)
      · cases hfirst
        exact List.mem_cons_self

theorem firstSelected_none (effectiveTier : WaiterId → ℤ) {candidates : List SelectedWaiter}
    (hnone : WaiterQueue.firstSelected effectiveTier candidates = none) : candidates = [] := by
  cases candidates with
  | nil => rfl
  | cons candidate rest =>
    rw [WaiterQueue.firstSelected] at hnone
    split at hnone
    · cases hnone
    · split at hnone <;> cases hnone

theorem Core.setQueue (hcore : Core scheduler exempt) {queue : WaiterQueue}
    (hsame : SameLanes scheduler.queue queue) (hheaps : HeapsOk scheduler.waiters queue none) :
    Core (scheduler.setQueue queue) exempt := by
  refine ⟨hcore.lanes.same hsame, hheaps, hcore.eligible.same hsame, hcore.budgets, ?_,
    hcore.promises, hcore.exempt_away, hcore.outcomes_below, hcore.microtasks_below⟩
  change RoutesBut scheduler.config scheduler.budgets queue.countsByBudget []
  rw [hsame.countsByBudget]
  exact hcore.routes

theorem fits_iff {waiter : AdmissionWaiter} {slotKind : AdmissionSlotKind} :
    scheduler.fits waiter slotKind = true ↔
      (scheduler.budgetOf (.ofClass waiter.admissionClass)).hasFree slotKind = true ∧
        scheduler.elig waiter.admissionClass waiter.route slotKind = true := by
  rw [fits, AdmissionWaiter.budgetKeys]
  cases waiter.route with
  | none => simp [GitAdmissionScheduler.elig]
  | some name => simp [GitAdmissionScheduler.elig]

theorem Core.noFit (hcore : Core scheduler exempt)
    (hbase : (scheduler.budgetOf (.ofClass admissionClass)).hasFree .base = true →
      ∀ tier, ∀ candidate ∈ scheduler.queue.baseCandidates admissionClass tier,
        scheduler.queue.candidateIsValid scheduler.waiters .base candidate = false)
    (hheadroom : (scheduler.budgetOf (.ofClass admissionClass)).hasFree .headroom = true →
      ∀ candidate ∈ scheduler.queue.headroomCandidates admissionClass,
        scheduler.queue.candidateIsValid scheduler.waiters .headroom candidate = false) :
    NoFit scheduler admissionClass := by
  intro id hbound hqueued hclass
  obtain ⟨lane, hlane, hroute, hmem⟩ := hcore.lanes.placed id hbound hqueued
  obtain ⟨hlaneClass, hlaneTier, -⟩ := hcore.lanes.ids _ _ lane hlane
  obtain ⟨first, hfirst, hfirstQueued⟩ := (hcore.lanes.live _ _ lane hlane).head
  obtain ⟨hnoBase, hnoHeadroom⟩ :=
    (hcore.heaps.published _ _ lane hlane (by simp)).not_invalid hfirst hfirstQueued
  have heligible := hcore.eligible _ _ lane hlane
  rw [hlaneClass, hclass] at hnoBase hnoHeadroom
  rw [hroute, hclass] at heligible
  refine ⟨Bool.eq_false_iff.mpr fun hfits => ?_, fun htier => Bool.eq_false_iff.mpr fun hfits => ?_⟩
  · obtain ⟨hfree, helig⟩ := fits_iff.mp hfits
    rw [hclass] at hfree helig
    have hfalse := hnoBase (hbase hfree lane.tier)
    have htrue := (heligible .base).trans helig
    change (scheduler.queue.laneStore lane).baseEligible = true at htrue
    rw [hfalse] at htrue
    cases htrue
  · obtain ⟨hfree, helig⟩ := fits_iff.mp hfits
    rw [hclass] at hfree helig
    have hfalse := hnoHeadroom (hheadroom hfree) (hlaneTier.trans htier)
    have htrue := (heligible .headroom).trans helig
    change (scheduler.queue.laneStore lane).headroomEligible = true at htrue
    rw [hfalse] at htrue
    cases htrue

theorem Core.selected (hcore : Core scheduler exempt) {selected : SelectedWaiter} {lane : LaneId}
    (heligible : WaiterQueue.Eligible scheduler.waiters scheduler.queue admissionClass selected
      lane)
    (hfree : (scheduler.budgetOf (.ofClass admissionClass)).hasFree selected.slotKind = true) :
    selected.waiter < scheduler.nextWaiterId ∧ isQueued scheduler.waiters selected.waiter = true ∧
      (scheduler.waiters selected.waiter).admissionClass = admissionClass ∧
      scheduler.fits (scheduler.waiters selected.waiter) selected.slotKind = true := by
  have hmem := List.mem_of_getElem? heligible.head
  have hlive := hcore.lanes.live_of_mem hmem
  obtain ⟨hbound, hclass, -, hroute⟩ := (hcore.lanes.live _ _ lane hlive).members _ hmem
  have hwaiterClass := hclass.trans heligible.admissionClass
  refine ⟨hbound, heligible.queued, hwaiterClass, fits_iff.mpr ?_⟩
  rw [hwaiterClass, hroute]
  refine ⟨hfree, ?_⟩
  rw [← heligible.admissionClass, ← hcore.eligible _ _ lane hlive]
  exact heligible.eligible

/-- The search for the next waiter keeps everything, and fails only when nobody fits. -/
theorem nextFitting_ok (now : ℤ) (fuel : ℕ) (hcore : Core scheduler exempt)
    (hfuel : scheduler.queue.totalCount < fuel) :
    let found := nextFitting admissionClass now
      ((scheduler.budgetOf (.ofClass admissionClass)).hasFree .base)
      ((scheduler.budgetOf (.ofClass admissionClass)).hasFree .headroom) fuel scheduler
    Core found.1 exempt ∧ Frame scheduler found.1 ∧ Keeps none scheduler found.1 ∧
      (∀ key, found.1.budgetOf key = scheduler.budgetOf key) ∧
      found.1.queue.totalCount ≤ scheduler.queue.totalCount ∧
      (found.2 = none → NoFit found.1 admissionClass) ∧
      ∀ selected, found.2 = some selected → selected.waiter < found.1.nextWaiterId ∧
          isQueued found.1.waiters selected.waiter = true ∧
          (found.1.waiters selected.waiter).admissionClass = admissionClass ∧
          found.1.fits (found.1.waiters selected.waiter) selected.slotKind = true := by
  induction fuel generalizing scheduler with
  | zero => exact absurd hfuel (Nat.not_lt_zero _)
  | succ fuel ih =>
    obtain ⟨hsame, hheaps, hselected, hempty⟩ := WaiterQueue.fittingCandidates_ok admissionClass
      ((scheduler.budgetOf (.ofClass admissionClass)).hasFree .base)
      ((scheduler.budgetOf (.ofClass admissionClass)).hasFree .headroom) hcore.heaps
    unfold nextFitting
    dsimp only
    generalize scheduler.queue.fittingCandidates scheduler.waiters admissionClass
      ((scheduler.budgetOf (.ofClass admissionClass)).hasFree .base)
      ((scheduler.budgetOf (.ofClass admissionClass)).hasFree .headroom) = peeked at *
    obtain ⟨queue, candidates⟩ := peeked
    dsimp only at hsame hheaps hselected hempty ⊢
    have hpeeked := hcore.setQueue hsame hheaps
    have hpeekedKeeps : Keeps none scheduler (scheduler.setQueue queue) :=
      Keeps.of_same rfl rfl rfl rfl
    have hframe : Frame scheduler (scheduler.setQueue queue) :=
      ⟨rfl, rfl, fun _ _ => ⟨rfl, rfl⟩, fun _ _ => rfl⟩
    have htotal : queue.totalCount = scheduler.queue.totalCount := hsame.totalCount
    split
    next hnone =>
      obtain ⟨hbase, hheadroom⟩ := hempty (firstSelected_none _ hnone)
      refine ⟨hpeeked, hframe, hpeekedKeeps, fun _ => rfl, Nat.le_of_eq htotal, fun _ => ?_,
        fun _ h => by cases h⟩
      exact (hcore.noFit hbase hheadroom).keep rfl (fun _ _ => rfl) fun _ _ => rfl
    next selected hfirst =>
      obtain ⟨lane, heligible, hfree⟩ := hselected selected (firstSelected_mem _ hfirst)
      have hfreeSlot :
          (scheduler.budgetOf (.ofClass admissionClass)).hasFree selected.slotKind = true := by
        cases hkind : selected.slotKind with
        | base =>
          rw [hkind] at hfree
          exact hfree
        | headroom =>
          rw [hkind] at hfree
          exact hfree
      have hchosen := hcore.selected heligible hfreeSlot
      split_ifs with haborted
      · -- the waiter's signal was aborted: it is rejected and the search goes on
        obtain ⟨hrejected, hrejectFrame, hbudgets, hless, hturned⟩ :=
          hpeeked.rejectQueued hchosen.1 hchosen.2.1
        have hkeeps : Keeps none (scheduler.setQueue queue) _ := hturned.mono fun _ hwho =>
          .inl (Option.some.inj hwho ▸ haborted)
        have hsmaller : ((scheduler.setQueue queue).rejectWaiter
            selected.waiter).queue.totalCount < fuel := by
          change _ + 1 = queue.totalCount at hless
          omega
        have hsameBudgets : ∀ key, ((scheduler.setQueue queue).rejectWaiter
            selected.waiter).budgetOf key = scheduler.budgetOf key := hbudgets
        have hrest := ih hrejected hsmaller
        rw [hsameBudgets] at hrest
        obtain ⟨hcore', hframe', hkeeps', hbudgets', htotal', hnone', hsome'⟩ := hrest
        refine ⟨hcore', (hframe.trans hrejectFrame).trans hframe',
          (hpeekedKeeps.trans hkeeps).trans hkeeps',
          fun key => (hbudgets' key).trans (hsameBudgets key), ?_, hnone', hsome'⟩
        change _ + 1 = queue.totalCount at hless
        omega
      · refine ⟨hpeeked, hframe, hpeekedKeeps, fun _ => rfl, Nat.le_of_eq htotal,
          fun h => (by cases h), ?_⟩
        intro other hother
        cases hother
        exact hchosen

theorem Core.ensureClass (hcore : Core scheduler exempt) :
    let ensured := scheduler.ensureBudget (.ofClass admissionClass)
    Core ensured exempt ∧ Frame scheduler ensured ∧ Keeps none scheduler ensured ∧
      ∀ key, ensured.budgetOf key = scheduler.budgetOf key := by
  intro ensured
  obtain ⟨budgets, hresult, hvalues, hdomain⟩ := @ensureBudgets_ok scheduler
    [.ofClass admissionClass] (List.nodup_singleton _)
  have hensured : ensured = { scheduler with budgets } := hresult
  rw [hensured]
  refine ⟨⟨hcore.lanes, hcore.heaps, eligible_congr hcore.eligible fun key => (hvalues key).symm,
    hcore.budgets.congr hvalues, ?_, hcore.promises, hcore.exempt_away, hcore.outcomes_below,
    hcore.microtasks_below⟩, ⟨rfl, rfl, fun _ _ => ⟨rfl, rfl⟩, fun _ _ => rfl⟩,
    Keeps.of_same rfl rfl rfl rfl, hvalues⟩
  intro otherClass route _ hsome
  have hold := (hdomain _ hsome).resolve_right (by simp)
  have hvalue : budgetIn scheduler.config budgets (.ofRoute otherClass route) = _ := hvalues _
  change (budgetIn scheduler.config budgets (.ofRoute otherClass route)).isUnused = false ∨ _
  rw [hvalue]
  exact hcore.routes otherClass route List.not_mem_nil hold

/-- A drain ends with nobody of its class fitting a free slot, and touches no other class. -/
theorem drain_ok (clock : ℕ → ℤ) (fuel : ℕ) (hcore : Core scheduler exempt)
    (hfuel : scheduler.queue.totalCount < fuel) :
    let drained := drain admissionClass clock fuel scheduler
    Core drained exempt ∧ Frame scheduler drained ∧ Keeps none scheduler drained ∧
      NoFit drained admissionClass ∧ ∀ key, key.admissionClass ≠ admissionClass →
        drained.budgetOf key = scheduler.budgetOf key := by
  induction fuel generalizing scheduler with
  | zero => exact absurd hfuel (Nat.not_lt_zero _)
  | succ fuel ih =>
    obtain ⟨hensured, hensuredFrame, hensuredKeeps, hensuredBudgets⟩ :=
      @Core.ensureClass scheduler exempt admissionClass hcore
    have hfound := @nextFitting_ok _ exempt admissionClass (clock fuel)
      ((scheduler.ensureBudget (.ofClass admissionClass)).queue.totalCount + 1) hensured
      (Nat.lt_succ_self _)
    rw [hensuredBudgets] at hfound
    unfold drain
    dsimp only
    generalize nextFitting admissionClass (clock fuel)
      ((scheduler.budgetOf (.ofClass admissionClass)).hasFree .base)
      ((scheduler.budgetOf (.ofClass admissionClass)).hasFree .headroom)
      ((scheduler.ensureBudget (.ofClass admissionClass)).queue.totalCount + 1)
      (scheduler.ensureBudget (.ofClass admissionClass)) = found at *
    obtain ⟨passed, selection⟩ := found
    obtain ⟨hpassed, hpassedFrame, hpassedKeeps, hpassedBudgets, htotal, hnone, hsome⟩ := hfound
    have hkeeps := hensuredKeeps.trans hpassedKeeps
    have hframe := hensuredFrame.trans hpassedFrame
    have hbudgets : ∀ key, passed.budgetOf key = scheduler.budgetOf key :=
      fun key => (hpassedBudgets key).trans (hensuredBudgets key)
    cases selection with
    | none => exact ⟨hpassed, hframe, hkeeps, hnone rfl, fun key _ => hbudgets key⟩
    | some selected =>
      obtain ⟨hbound, hqueued, hclass, hfits⟩ := hsome selected rfl
      obtain ⟨hgranted, hgrantFrame, hgrantBudgets, hless, hgrantKeeps⟩ :=
        hpassed.grant hbound hqueued hfits (clock fuel)
      have hsmaller : (passed.grant selected.waiter selected.slotKind
          (clock fuel)).queue.totalCount < fuel := by
        have hless' : (passed.grant selected.waiter selected.slotKind
            (clock fuel)).queue.totalCount + 1 = passed.queue.totalCount := hless
        have htotal' : passed.queue.totalCount ≤ scheduler.queue.totalCount := htotal
        omega
      obtain ⟨hcore', hframe', hkeeps', hnoFit', hbudgets'⟩ := ih hgranted hsmaller
      refine ⟨hcore', (hframe.trans hgrantFrame).trans hframe',
        (hkeeps.trans hgrantKeeps).trans hkeeps', hnoFit', fun key hkey => ?_⟩
      rw [hbudgets' key hkey, hgrantBudgets key fun hmem => hkey ?_, hbudgets key]
      exact (budgetKeys_class hmem).trans hclass

theorem drainAll_ok (clock : ℕ → ℤ) (hcore : Core scheduler exempt) :
    let drained := scheduler.drainAll admissionClass clock
    Core drained exempt ∧ Frame scheduler drained ∧ Keeps none scheduler drained ∧
      NoFit drained admissionClass ∧ ∀ key, key.admissionClass ≠ admissionClass →
        drained.budgetOf key = scheduler.budgetOf key :=
  drain_ok clock _ hcore (Nat.lt_succ_self _)

end Wakii.GitAdmission
