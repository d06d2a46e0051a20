import Wakii.Git.WaiterQueue
import Wakii.Library.CountBelow

/-!
# What holds of the waiter queue

Every waiter counted as queued stands in the lane of its class, tier and route,
every lane in use has such a waiter at its head, and the head of a lane that may
be granted is published.
-/

namespace Wakii.GitAdmission

namespace WaiterQueue

variable {waiters : WaiterId → AdmissionWaiter} {bound : ℕ} {counted : WaiterId → Bool}
  {queue next : WaiterQueue} {exempt : Option LaneId}

section Statements

variable (waiters bound counted queue)

def BelongsTo (id : LaneId) (waiter : AdmissionWaiter) : Prop :=
  waiter.admissionClass = id.admissionClass ∧ waiter.tier = id.tier ∧ waiter.route = id.route

structure LaneOk (id : LaneId) (lane : WaiterLane) : Prop where
  nodup : lane.items.Nodup
  members : ∀ waiter ∈ lane.items, waiter < bound ∧ BelongsTo id (waiters waiter)
  count : lane.count = lane.items.countP counted
  head : ∃ waiter, lane.headWaiter = some waiter ∧ counted waiter = true
  passed : ∀ waiter ∈ lane.items.take lane.head, counted waiter = false

/-- The lanes hold the waiters that are counted. -/
structure LanesOk : Prop where
  ids : ∀ admissionClass tier, ∀ id ∈ queue.lanes admissionClass tier,
    id.admissionClass = admissionClass ∧ id.tier = tier ∧ id.serial < queue.nextSerial
  routes : ∀ admissionClass tier, ((queue.lanes admissionClass tier).map LaneId.route).Nodup
  live : ∀ admissionClass tier, ∀ id ∈ queue.lanes admissionClass tier,
    LaneOk waiters bound counted id (queue.laneStore id)
  dead : ∀ id : LaneId, id ∉ queue.lanes id.admissionClass id.tier → (queue.laneStore id).items = []
  placed : ∀ waiter < bound, counted waiter = true →
    ∃ id ∈ queue.lanes (waiters waiter).admissionClass (waiters waiter).tier,
      id.route = (waiters waiter).route ∧ waiter ∈ (queue.laneStore id).items
  total : queue.totalCount = CountBelow.count counted bound
  counts : ∀ key, queue.countsByBudget key =
    CountBelow.count (fun waiter => counted waiter && decide (key ∈ (waiters waiter).budgetKeys))
      bound

/-- The head of the lane stands in the heaps it is eligible for. -/
def Published (id : LaneId) : Prop :=
  ∀ waiter, (queue.laneStore id).headWaiter = some waiter → isQueued waiters waiter = true →
    ((queue.laneStore id).baseEligible = true → ⟨id, waiter, (queue.laneStore id).version⟩ ∈
        queue.baseCandidates id.admissionClass id.tier) ∧
    (id.tier = .interactive → (queue.laneStore id).headroomEligible = true →
      ⟨id, waiter, (queue.laneStore id).version⟩ ∈ queue.headroomCandidates id.admissionClass)

/-- The heaps hold candidates of their class and tier, and every lane but one is published. -/
structure HeapsOk (exempt : Option LaneId) : Prop where
  base : ∀ admissionClass tier, ∀ candidate ∈ queue.baseCandidates admissionClass tier,
    candidate.lane.admissionClass = admissionClass ∧ candidate.lane.tier = tier
  headroom : ∀ admissionClass, ∀ candidate ∈ queue.headroomCandidates admissionClass,
    candidate.lane.admissionClass = admissionClass ∧ candidate.lane.tier = .interactive
  published : ∀ admissionClass tier, ∀ id ∈ queue.lanes admissionClass tier,
    exempt ≠ some id → Published waiters queue id

/-- The two queues differ in their heaps only. -/
structure SameLanes (next : WaiterQueue) : Prop where
  lanes : next.lanes = queue.lanes
  laneStore : next.laneStore = queue.laneStore
  nextSerial : next.nextSerial = queue.nextSerial
  countsByBudget : next.countsByBudget = queue.countsByBudget
  totalCount : next.totalCount = queue.totalCount

end Statements

section Lanes

theorem SameLanes.refl (queue : WaiterQueue) : SameLanes queue queue := ⟨rfl, rfl, rfl, rfl, rfl⟩

theorem SameLanes.trans {last : WaiterQueue} (hfirst : SameLanes queue next)
    (hsecond : SameLanes next last) : SameLanes queue last :=
  ⟨hsecond.lanes.trans hfirst.lanes, hsecond.laneStore.trans hfirst.laneStore,
    hsecond.nextSerial.trans hfirst.nextSerial,
    hsecond.countsByBudget.trans hfirst.countsByBudget,
    hsecond.totalCount.trans hfirst.totalCount⟩

theorem LanesOk.same (hlanes : LanesOk waiters bound counted queue)
    (hsame : SameLanes queue next) : LanesOk waiters bound counted next := by
  refine ⟨?_, ?_, ?_, ?_, ?_, ?_, ?_⟩
  · rw [hsame.lanes, hsame.nextSerial]
    exact hlanes.ids
  · rw [hsame.lanes]
    exact hlanes.routes
  · rw [hsame.lanes, hsame.laneStore]
    exact hlanes.live
  · rw [hsame.lanes, hsame.laneStore]
    exact hlanes.dead
  · rw [hsame.lanes, hsame.laneStore]
    exact hlanes.placed
  · rw [hsame.totalCount]
    exact hlanes.total
  · rw [hsame.countsByBudget]
    exact hlanes.counts

/-- What the lanes read of the waiters is where they belong and whether they count. -/
theorem LanesOk.congr {others : WaiterId → AdmissionWaiter} {recounted : WaiterId → Bool}
    (hlanes : LanesOk waiters bound counted queue)
    (hclass : ∀ waiter < bound, (others waiter).admissionClass = (waiters waiter).admissionClass)
    (htier : ∀ waiter < bound, (others waiter).tier = (waiters waiter).tier)
    (hroute : ∀ waiter < bound, (others waiter).route = (waiters waiter).route)
    (hcounted : ∀ waiter < bound, recounted waiter = counted waiter) :
    LanesOk others bound recounted queue := by
  refine ⟨hlanes.ids, hlanes.routes, ?_, hlanes.dead, ?_, ?_, ?_⟩
  · intro admissionClass tier id hid
    have hlane := hlanes.live admissionClass tier id hid
    obtain ⟨first, hfirst, hcount⟩ := hlane.head
    have hmem : first ∈ (queue.laneStore id).items := List.mem_of_getElem? hfirst
    refine ⟨hlane.nodup, ?_, ?_, ⟨first, hfirst, ?_⟩, ?_⟩
    · intro waiter hwaiter
      obtain ⟨hbound, hbelongs⟩ := hlane.members waiter hwaiter
      refine ⟨hbound, ?_⟩
      rw [BelongsTo, hclass waiter hbound, htier waiter hbound, hroute waiter hbound]
      exact hbelongs
    · rw [hlane.count]
      refine List.countP_congr fun waiter hwaiter => ?_
      rw [hcounted waiter (hlane.members waiter hwaiter).1]
    · rw [hcounted first (hlane.members first hmem).1]
      exact hcount
    · intro waiter hwaiter
      rw [hcounted waiter (hlane.members waiter (List.mem_of_mem_take hwaiter)).1]
      exact hlane.passed waiter hwaiter
  · intro waiter hbound hcount
    rw [hcounted waiter hbound] at hcount
    rw [hclass waiter hbound, htier waiter hbound, hroute waiter hbound]
    exact hlanes.placed waiter hbound hcount
  · rw [hlanes.total]
    exact CountBelow.count_congr fun waiter hbound => (hcounted waiter hbound).symm
  · intro key
    rw [hlanes.counts key]
    refine CountBelow.count_congr fun waiter hbound => ?_
    rw [hcounted waiter hbound, AdmissionWaiter.budgetKeys, AdmissionWaiter.budgetKeys,
      hclass waiter hbound, hroute waiter hbound]

variable {admissionClass : AdmissionClass}

theorem findLane_some {tier : GitAdmissionTier} {route : Option Route} {id : LaneId}
    (hfound : queue.findLane admissionClass tier route = some id) :
    id ∈ queue.lanes admissionClass tier ∧ id.route = route :=
  ⟨List.mem_of_find?_eq_some hfound, by simpa using List.find?_some hfound⟩

theorem findLane_none {tier : GitAdmissionTier} {route : Option Route}
    (hfound : queue.findLane admissionClass tier route = none) :
    ∀ id ∈ queue.lanes admissionClass tier, id.route ≠ route := by
  intro id hid heq
  have hnone := List.find?_eq_none.mp hfound id hid
  exact hnone (by simpa using heq)

section

variable (hlanes : LanesOk waiters bound counted queue)
include hlanes

theorem LanesOk.lane_eq
    {admissionClass : AdmissionClass} {tier : GitAdmissionTier} {left right : LaneId}
    (hleft : left ∈ queue.lanes admissionClass tier)
    (hright : right ∈ queue.lanes admissionClass tier) (hroute : left.route = right.route) :
    left = right :=
  List.inj_on_of_nodup_map (hlanes.routes admissionClass tier) hleft hright hroute

theorem LanesOk.live_of_mem {id : LaneId}
    {waiter : WaiterId} (hmem : waiter ∈ (queue.laneStore id).items) :
    id ∈ queue.lanes id.admissionClass id.tier := by
  by_contra hdead
  rw [hlanes.dead id hdead] at hmem
  cases hmem

theorem LanesOk.findLane_of_counted
    {waiter : WaiterId} (hbound : waiter < bound) (hcounted : counted waiter = true) :
    ∃ id, queue.findLane (waiters waiter).admissionClass (waiters waiter).tier
        (waiters waiter).route = some id ∧
      id ∈ queue.lanes (waiters waiter).admissionClass (waiters waiter).tier ∧
      id.route = (waiters waiter).route ∧ waiter ∈ (queue.laneStore id).items := by
  obtain ⟨id, hid, hroute, hmem⟩ := hlanes.placed waiter hbound hcounted
  cases hfound : queue.findLane (waiters waiter).admissionClass (waiters waiter).tier
      (waiters waiter).route with
  | none => exact absurd hroute (findLane_none hfound id hid)
  | some found =>
    obtain ⟨hfoundMem, hfoundRoute⟩ := findLane_some hfound
    have hsame : found = id := hlanes.lane_eq hfoundMem hid (hfoundRoute.trans hroute.symm)
    subst hsame
    exact ⟨found, rfl, hid, hroute, hmem⟩

/-- A lane may be set with its waiters as they were. -/
theorem LanesOk.setLane {id : LaneId}
    {lane : WaiterLane} (hitems : lane.items = (queue.laneStore id).items)
    (hhead : lane.head = (queue.laneStore id).head)
    (hcount : lane.count = (queue.laneStore id).count) :
    LanesOk waiters bound counted (queue.setLane id lane) := by
  have hother : ∀ other, ((queue.setLane id lane).laneStore other).items =
      (queue.laneStore other).items := by
    intro other
    by_cases heq : other = id
    · rw [heq, setLane_self, hitems]
    · rw [setLane_of_ne heq]
  refine ⟨hlanes.ids, hlanes.routes, ?_, ?_, ?_, hlanes.total, hlanes.counts⟩
  · intro admissionClass tier other hmem
    have hlane := hlanes.live admissionClass tier other hmem
    by_cases heq : other = id
    · subst heq
      rw [setLane_self]
      refine ⟨?_, ?_, ?_, ?_, ?_⟩
      · rw [hitems]
        exact hlane.nodup
      · rw [hitems]
        exact hlane.members
      · rw [hcount, hitems]
        exact hlane.count
      · rw [WaiterLane.headWaiter, hitems, hhead]
        exact hlane.head
      · rw [hitems, hhead]
        exact hlane.passed
    · rw [setLane_of_ne heq]
      exact hlane
  · intro other hdead
    rw [hother]
    exact hlanes.dead other hdead
  · intro waiter hbound hcounted
    obtain ⟨other, hmem, hroute, hitem⟩ := hlanes.placed waiter hbound hcounted
    refine ⟨other, hmem, hroute, ?_⟩
    rw [hother]
    exact hitem

end

end Lanes

section Heaps

variable (admissionClass : AdmissionClass) {candidate : Candidate}

theorem setBase_same (tier : GitAdmissionTier)
    (items : List Candidate) : SameLanes queue (queue.setBase admissionClass tier items) :=
  ⟨rfl, rfl, rfl, rfl, rfl⟩

theorem setHeadroom_same (items : List Candidate) :
    SameLanes queue (queue.setHeadroom admissionClass items) :=
  ⟨rfl, rfl, rfl, rfl, rfl⟩

theorem pushCandidate_same (candidate : Candidate) (baseEligible headroomEligible : Bool) :
    SameLanes queue (queue.pushCandidate candidate baseEligible headroomEligible) := by
  unfold pushCandidate
  dsimp only
  split <;> split <;> exact ⟨rfl, rfl, rfl, rfl, rfl⟩

theorem publishLaneHead_same (id : LaneId) :
    SameLanes queue (queue.publishLaneHead waiters id) := by
  unfold publishLaneHead
  dsimp only
  split
  · exact SameLanes.refl queue
  · split
    · exact pushCandidate_same _ _ _
    · exact SameLanes.refl queue

theorem compactCandidateHeaps_same (tier : GitAdmissionTier) :
    SameLanes queue (queue.compactCandidateHeaps waiters admissionClass tier) := by
  unfold compactCandidateHeaps
  dsimp only
  split <;> exact ⟨rfl, rfl, rfl, rfl, rfl⟩

variable {slotKind : AdmissionSlotKind}

theorem candidateIsValid_head {id : LaneId} {waiter : WaiterId}
    (hhead : (queue.laneStore id).headWaiter = some waiter)
    (hqueued : isQueued waiters waiter = true)
    (heligible : (queue.laneStore id).eligible slotKind = true) :
    queue.candidateIsValid waiters slotKind ⟨id, waiter, (queue.laneStore id).version⟩ = true := by
  simp [candidateIsValid, hhead, hqueued, heligible]

theorem candidateIsValid_iff : queue.candidateIsValid waiters slotKind candidate = true ↔
      candidate.version = (queue.laneStore candidate.lane).version ∧
        (queue.laneStore candidate.lane).headWaiter = some candidate.waiter ∧
        isQueued waiters candidate.waiter = true ∧
        (queue.laneStore candidate.lane).eligible slotKind = true := by
  simp [candidateIsValid, and_assoc]

section

variable (hheaps : HeapsOk waiters queue exempt)
include hheaps

variable {admissionClass : AdmissionClass}

theorem HeapsOk.setBase {tier : GitAdmissionTier} {items : List Candidate}
    (hitems : ∀ candidate ∈ items,
      candidate.lane.admissionClass = admissionClass ∧ candidate.lane.tier = tier)
    (hkeeps : ∀ candidate ∈ queue.baseCandidates admissionClass tier,
      queue.candidateIsValid waiters .base candidate = true → candidate ∈ items) :
    HeapsOk waiters (queue.setBase admissionClass tier items) exempt := by
  refine ⟨?_, hheaps.headroom, ?_⟩
  · intro other otherTier candidate hmem
    simp only [WaiterQueue.setBase] at hmem
    split at hmem
    next heq =>
      obtain ⟨rfl, rfl⟩ := heq
      exact hitems candidate hmem
    · exact hheaps.base other otherTier candidate hmem
  · intro other otherTier id hid hexempt waiter hhead hqueued
    obtain ⟨hbase, hheadroom⟩ := hheaps.published other otherTier id hid hexempt waiter hhead
      hqueued
    refine ⟨fun heligible => ?_, hheadroom⟩
    have hold := hbase heligible
    simp only [WaiterQueue.setBase]
    split
    next heq =>
      rw [heq.1, heq.2] at hold
      exact hkeeps _ hold (candidateIsValid_head hhead hqueued heligible)
    · exact hold

theorem HeapsOk.setHeadroom {items : List Candidate} (hitems : ∀ candidate ∈ items,
      candidate.lane.admissionClass = admissionClass ∧ candidate.lane.tier = .interactive)
    (hkeeps : ∀ candidate ∈ queue.headroomCandidates admissionClass,
      queue.candidateIsValid waiters .headroom candidate = true → candidate ∈ items) :
    HeapsOk waiters (queue.setHeadroom admissionClass items) exempt := by
  refine ⟨hheaps.base, ?_, ?_⟩
  · intro other candidate hmem
    simp only [WaiterQueue.setHeadroom, Function.update_apply] at hmem
    split at hmem
    next heq =>
      subst heq
      exact hitems candidate hmem
    · exact hheaps.headroom other candidate hmem
  · intro other otherTier id hid hexempt waiter hhead hqueued
    obtain ⟨hbase, hheadroom⟩ := hheaps.published other otherTier id hid hexempt waiter hhead
      hqueued
    refine ⟨hbase, fun htier heligible => ?_⟩
    have hold := hheadroom htier heligible
    simp only [WaiterQueue.setHeadroom, Function.update_apply]
    split
    next heq =>
      rw [heq] at hold
      exact hkeeps _ hold (candidateIsValid_head hhead hqueued heligible)
    · exact hold

theorem HeapsOk.compactCandidateHeaps (admissionClass : AdmissionClass) (tier : GitAdmissionTier) :
    HeapsOk waiters (queue.compactCandidateHeaps waiters admissionClass tier) exempt := by
  unfold WaiterQueue.compactCandidateHeaps
  dsimp only
  generalize (queue.lanes admissionClass tier).length * 2 + CANDIDATE_HEAP_COMPACTION_SLACK = size
  obtain ⟨hsub, hkept⟩ := @BinaryHeap.compactIfOversized_sub _ Candidate.waiter
    (queue.baseCandidates admissionClass tier) size (queue.candidateIsValid waiters .base)
  have hbase := hheaps.setBase (fun candidate hmem =>
    hheaps.base admissionClass tier candidate (hsub candidate hmem)) hkept
  split
  · obtain ⟨hsubHead, hkeptHead⟩ := @BinaryHeap.compactIfOversized_sub _ Candidate.waiter
      (queue.headroomCandidates admissionClass) size (queue.candidateIsValid waiters .headroom)
    exact hbase.setHeadroom (fun candidate hmem =>
      hheaps.headroom admissionClass candidate (hsubHead candidate hmem)) hkeptHead
  · exact hbase

end

theorem mem_push {candidate other : Candidate} {items : List Candidate} :
    other ∈ BinaryHeap.push Candidate.waiter items candidate ↔
      other = candidate ∨ other ∈ items := by
  rw [BinaryHeap.push_perm.mem_iff, List.mem_cons]

variable {baseEligible headroomEligible : Bool}

theorem pushCandidate_base :
    (queue.pushCandidate candidate baseEligible headroomEligible).baseCandidates =
      fun admissionClass tier =>
        if baseEligible = true ∧ admissionClass = candidate.lane.admissionClass ∧
            tier = candidate.lane.tier then
          BinaryHeap.push Candidate.waiter (queue.baseCandidates candidate.lane.admissionClass
            candidate.lane.tier) candidate
        else queue.baseCandidates admissionClass tier := by
  funext admissionClass tier
  unfold pushCandidate
  dsimp only
  cases baseEligible with
  | true => split <;> simp [WaiterQueue.setBase, WaiterQueue.setHeadroom]
  | false => split <;> simp [WaiterQueue.setHeadroom]

theorem pushCandidate_headroom :
    (queue.pushCandidate candidate baseEligible headroomEligible).headroomCandidates =
      fun admissionClass =>
        if (candidate.lane.tier = .interactive ∧ headroomEligible = true) ∧
            admissionClass = candidate.lane.admissionClass then
          BinaryHeap.push Candidate.waiter
            (queue.headroomCandidates candidate.lane.admissionClass) candidate
        else queue.headroomCandidates admissionClass := by
  funext admissionClass
  unfold pushCandidate
  dsimp only
  split
  next htier =>
    cases baseEligible <;>
      simp [WaiterQueue.setBase, WaiterQueue.setHeadroom, Function.update_apply, htier]
  next htier =>
    have hnot : ¬ ((candidate.lane.tier = .interactive ∧ headroomEligible = true) ∧
        admissionClass = candidate.lane.admissionClass) := fun hboth => htier hboth.1
    rw [if_neg hnot]
    split <;> rfl

/-- A lane exempted until now is published again. -/
theorem HeapsOk.pushCandidate {id : LaneId} (hheaps : HeapsOk waiters queue (some id))
    {waiter : WaiterId} (hhead : (queue.laneStore id).headWaiter = some waiter) :
    HeapsOk waiters (queue.pushCandidate ⟨id, waiter, (queue.laneStore id).version⟩
      (queue.laneStore id).baseEligible (queue.laneStore id).headroomEligible) none := by
  have hsame := @pushCandidate_same queue ⟨id, waiter, (queue.laneStore id).version⟩
    (queue.laneStore id).baseEligible (queue.laneStore id).headroomEligible
  refine ⟨?_, ?_, ?_⟩
  · intro admissionClass tier candidate hmem
    rw [pushCandidate_base] at hmem
    dsimp only at hmem
    split at hmem
    next heq =>
      cases mem_push.mp hmem with
      | inl hnew =>
        rw [hnew]
        exact ⟨heq.2.1.symm, heq.2.2.symm⟩
      | inr hold =>
        rw [heq.2.1, heq.2.2]
        exact hheaps.base _ _ candidate hold
    · exact hheaps.base admissionClass tier candidate hmem
  · intro admissionClass candidate hmem
    rw [pushCandidate_headroom] at hmem
    dsimp only at hmem
    split at hmem
    next heq =>
      cases mem_push.mp hmem with
      | inl hnew =>
        rw [hnew]
        exact ⟨heq.2.symm, heq.1.1⟩
      | inr hold =>
        rw [heq.2]
        exact hheaps.headroom _ candidate hold
    · exact hheaps.headroom admissionClass candidate hmem
  · intro admissionClass tier other hmem _
    rw [hsame.lanes] at hmem
    rw [Published, hsame.laneStore, pushCandidate_base, pushCandidate_headroom]
    intro first hfirst hqueued
    by_cases heq : other = id
    · subst heq
      have hwaiter : first = waiter := by
        rw [hhead] at hfirst
        exact (Option.some.inj hfirst).symm
      subst hwaiter
      refine ⟨fun heligible => ?_, fun htier heligible => ?_⟩
      · dsimp only
        rw [if_pos ⟨heligible, rfl, rfl⟩]
        exact mem_push.mpr (.inl rfl)
      · dsimp only
        rw [if_pos ⟨⟨htier, heligible⟩, rfl⟩]
        exact mem_push.mpr (.inl rfl)
    · obtain ⟨hbase, hheadroom⟩ := hheaps.published admissionClass tier other hmem
        (fun h => heq (Option.some.inj h).symm) first hfirst hqueued
      refine ⟨fun heligible => ?_, fun htier heligible => ?_⟩
      · have hold := hbase heligible
        dsimp only
        split
        next hplace =>
          refine mem_push.mpr (.inr ?_)
          rw [hplace.2.1, hplace.2.2] at hold
          exact hold
        · exact hold
      · have hold := hheadroom htier heligible
        dsimp only
        split
        next hplace =>
          refine mem_push.mpr (.inr ?_)
          rw [hplace.2] at hold
          exact hold
        · exact hold

theorem HeapsOk.publishLaneHead {id : LaneId} (hheaps : HeapsOk waiters queue (some id)) :
    HeapsOk waiters (queue.publishLaneHead waiters id) none := by
  unfold WaiterQueue.publishLaneHead
  dsimp only
  split
  next hnone =>
    refine ⟨hheaps.base, hheaps.headroom, fun admissionClass tier other hmem _ => ?_⟩
    by_cases heq : id = other
    · intro waiter hhead
      rw [← heq, hnone] at hhead
      cases hhead
    · exact hheaps.published admissionClass tier other hmem (by simpa using heq)
  next first hfirst =>
    split
    next hqueued => exact hheaps.pushCandidate hfirst
    next hnot =>
      refine ⟨hheaps.base, hheaps.headroom, fun admissionClass tier other hmem _ => ?_⟩
      by_cases heq : id = other
      · intro waiter hhead hwaiter
        rw [← heq, hfirst] at hhead
        cases hhead
        exact absurd hwaiter hnot
      · exact hheaps.published admissionClass tier other hmem (by simpa using heq)

end Heaps

end WaiterQueue

end Wakii.GitAdmission
