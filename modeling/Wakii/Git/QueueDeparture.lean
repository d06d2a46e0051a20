import Mathlib.Data.List.TakeWhile
import Wakii.Git.QueueOperations

/-!
# Waiters that leave the queue

A waiter that is no longer queued is taken out of the count.  Its lane moves its
head on, or goes out of use with its last waiter.
-/

namespace Wakii.GitAdmission

open List

namespace WaiterQueue

variable {waiters : WaiterId → AdmissionWaiter} {bound : ℕ} {counted : WaiterId → Bool}
  {queue : WaiterQueue} {waiter : WaiterId} {laneId : LaneId} {old : WaiterLane}

/-- The waiter is the one that still counts though it is not queued. -/
structure Leaving (waiters : WaiterId → AdmissionWaiter) (bound : ℕ)
    (counted : WaiterId → Bool) (waiter : WaiterId) : Prop where
  below : waiter < bound
  counts : counted waiter = true
  not_queued : isQueued waiters waiter = false
  others : ∀ other, other ≠ waiter → counted other = isQueued waiters other

section Compact

theorem compact_count (lane : WaiterLane) : (compact waiters lane).count = lane.count := by
  unfold compact
  dsimp only
  split
  · rfl
  · split <;> rfl

theorem compact_same (lane : WaiterLane) : (compact waiters lane).baseEligible = lane.baseEligible ∧
      (compact waiters lane).headroomEligible = lane.headroomEligible ∧
      (compact waiters lane).version = lane.version := by
  unfold compact
  dsimp only
  split
  · exact ⟨rfl, rfl, rfl⟩
  · split <;> exact ⟨rfl, rfl, rfl⟩

theorem compact_empty {lane : WaiterLane} (hcount : lane.count = 0) :
    (compact waiters lane).items = [] := by
  unfold compact
  dsimp only
  rw [if_pos hcount]

section

variable (hlane : LaneOk waiters bound counted laneId old)
  (hleaving : Leaving waiters bound counted waiter)
include hlane hleaving

theorem LaneOk.passed_not_queued :
    ∀ other ∈ old.items.take old.head, isQueued waiters other = false := by
  intro other hother
  by_cases heq : other = waiter
  · rw [heq]
    exact hleaving.not_queued
  · rw [← hleaving.others other heq]
    exact hlane.passed other hother

theorem LaneOk.remaining (hmem : waiter ∈ old.items) :
    old.count - 1 = old.items.countP (isQueued waiters) := by
  have hloss := CountBelow.countP_loss hlane.nodup hmem hleaving.others hleaving.counts
    hleaving.not_queued
  rw [hlane.count]
  omega

section

variable (hmem : waiter ∈ old.items) (hleft : old.count - 1 ≠ 0)
include hmem hleft

/-- Where a lane has a queued waiter left, the head moves on to the first of them. -/
theorem LaneOk.skip :
    ∃ passed first more, old.items = passed ++ first :: more ∧ passed.length = old.head +
        ((old.items.drop old.head).takeWhile fun other => !isQueued waiters other).length ∧
      (∀ other ∈ passed, isQueued waiters other = false) ∧ isQueued waiters first = true := by
  have hpassed := hlane.passed_not_queued hleaving
  have hremaining := hlane.remaining hleaving hmem
  generalize hskip : (old.items.drop old.head).takeWhile (fun other => !isQueued waiters other) =
    skipped
  generalize htail : (old.items.drop old.head).dropWhile (fun other => !isQueued waiters other) =
    tail
  have hjoin : skipped ++ tail = old.items.drop old.head := by
    rw [← hskip, ← htail]
    exact takeWhile_append_dropWhile
  have hskipped : ∀ other ∈ skipped, isQueued waiters other = false := by
    intro other hother
    rw [← hskip] at hother
    simpa using mem_takeWhile_imp hother
  have hitems : old.items = (old.items.take old.head ++ skipped) ++ tail := by
    rw [append_assoc, hjoin, take_append_drop]
  have hbefore : ∀ other ∈ old.items.take old.head ++ skipped, isQueued waiters other = false := by
    intro other hother
    cases mem_append.mp hother with
    | inl htaken => exact hpassed other htaken
    | inr hlater => exact hskipped other hlater
  cases tail with
  | nil =>
    rw [append_nil] at hitems
    have hnone : old.items.countP (isQueued waiters) = 0 := by
      rw [hitems]
      exact countP_eq_zero.mpr fun other hother => by simp [hbefore other hother]
    omega
  | cons first more =>
    refine ⟨old.items.take old.head ++ skipped, first, more, hitems, ?_, hbefore, ?_⟩
    · rw [length_append, length_take, Nat.min_eq_left (Nat.le_of_lt hlane.head_lt)]
    · have hhead := head?_dropWhile_not (fun other => !isQueued waiters other)
        (old.items.drop old.head)
      rw [htail] at hhead
      simpa using hhead

/-- A lane with waiters left is in order again once its head has moved on. -/
theorem LaneOk.compact : LaneOk waiters bound (isQueued waiters) laneId
      (compact waiters { old with count := old.count - 1 }) := by
  have hremaining := hlane.remaining hleaving hmem
  obtain ⟨passed, first, more, hitems, hlength, hpassed, hfirst⟩ := hlane.skip hleaving hmem hleft
  have hdrop : old.items.drop passed.length = first :: more := by
    rw [hitems, drop_left]
  have hnodup := hlane.nodup
  unfold WaiterQueue.compact
  dsimp only
  rw [if_neg hleft, ← hlength]
  split
  · refine ⟨hnodup, hlane.members, hremaining, ⟨first, ?_, hfirst⟩, ?_⟩
    · rw [WaiterLane.headWaiter, hitems, getElem?_append_right (Nat.le_refl _), Nat.sub_self]
      rfl
    · rw [hitems, take_left]
      exact hpassed
  · rw [hdrop]
    have hsub : ((first :: more).filter (isQueued waiters)).Sublist old.items := by
      rw [hitems]
      exact filter_sublist.trans (sublist_append_right passed (first :: more))
    refine ⟨hnodup.sublist hsub, ?_, ?_, ⟨first, ?_, hfirst⟩, fun _ h => by cases h⟩
    · exact fun other hother => hlane.members other (hsub.subset hother)
    · have hnone : passed.countP (isQueued waiters) = 0 :=
        countP_eq_zero.mpr fun other hother => by simp [hpassed other hother]
      rw [hremaining, hitems, countP_append, hnone, Nat.zero_add, countP_filter]
      simp
    · rw [WaiterLane.headWaiter, filter_cons_of_pos hfirst]
      rfl

theorem LaneOk.compact_keeps {other : WaiterId} (hother : other ∈ old.items)
    (hqueued : isQueued waiters other = true) :
    other ∈ (WaiterQueue.compact waiters { old with count := old.count - 1 }).items := by
  obtain ⟨passed, first, more, hitems, hlength, hpassed, hfirst⟩ := hlane.skip hleaving hmem hleft
  have hdrop : old.items.drop passed.length = first :: more := by
    rw [hitems, drop_left]
  unfold WaiterQueue.compact
  dsimp only
  rw [if_neg hleft, ← hlength]
  split
  · exact hother
  · rw [hdrop]
    refine mem_filter.mpr ⟨?_, hqueued⟩
    rw [hitems] at hother
    cases mem_append.mp hother with
    | inl hbefore =>
      rw [hpassed other hbefore] at hqueued
      cases hqueued
    | inr hafter => exact hafter

end

end

end Compact

section Dequeue

theorem Leaving.counted_of_queued (hleaving : Leaving waiters bound counted waiter)
    {other : WaiterId} (hqueued : isQueued waiters other = true) : counted other = true := by
  have hne : other ≠ waiter := by
    intro heq
    rw [heq, hleaving.not_queued] at hqueued
    cases hqueued
  rw [hleaving.others other hne]
  exact hqueued

theorem LanesOk.own_lane (hlanes : LanesOk waiters bound counted queue)
    (hmem : laneId ∈ queue.lanes (waiters waiter).admissionClass (waiters waiter).tier)
    (hroute : laneId.route = (waiters waiter).route) {admissionClass : AdmissionClass}
    {tier : GitAdmissionTier} {other : LaneId} (hother : other ∈ queue.lanes admissionClass tier)
    (hin : waiter ∈ (queue.laneStore other).items) : other = laneId := by
  obtain ⟨-, hclass, htier, hotherRoute⟩ :=
    (hlanes.live admissionClass tier other hother).members waiter hin
  obtain ⟨hidClass, hidTier, -⟩ := hlanes.ids admissionClass tier other hother
  refine hlanes.lane_eq ?_ hmem (hotherRoute.symm.trans hroute.symm)
  rw [hclass, htier, hidClass, hidTier]
  exact hother

theorem LaneOk.others (hlane : LaneOk waiters bound counted laneId old)
    (hleaving : Leaving waiters bound counted waiter) (hout : waiter ∉ old.items) :
    LaneOk waiters bound (isQueued waiters) laneId old := by
  have hsame : ∀ other ∈ old.items, isQueued waiters other = counted other := by
    intro other hother
    exact (hleaving.others other fun heq => hout (heq ▸ hother)).symm
  obtain ⟨first, hfirst, hfirstCounted⟩ := hlane.head
  refine ⟨hlane.nodup, hlane.members, ?_, ⟨first, hfirst, ?_⟩, ?_⟩
  · rw [hlane.count]
    refine countP_congr fun other hother => ?_
    rw [hsame other hother]
  · rw [hsame first (mem_of_getElem? hfirst)]
    exact hfirstCounted
  · intro other hother
    rw [hsame other (mem_of_mem_take hother)]
    exact hlane.passed other hother

variable {free : AdmissionClass → Option Route → AdmissionSlotKind → Bool}

section

variable (hlanes : LanesOk waiters bound counted queue)
  (hleaving : Leaving waiters bound counted waiter)
include hlanes hleaving

theorem subCounts_ok : queue.totalCount - 1 = CountBelow.count (isQueued waiters) bound ∧
      ∀ key, (queue.subCounts (waiters waiter).budgetKeys).countsByBudget key = CountBelow.count
          (fun other => isQueued waiters other && decide (key ∈ (waiters other).budgetKeys))
          bound := by
  refine ⟨?_, fun key => ?_⟩
  · have hloss := CountBelow.count_loss hleaving.others hleaving.below hleaving.counts
      hleaving.not_queued
    rw [hlanes.total]
    omega
  · have hothers : ∀ other, other ≠ waiter →
        (counted other && decide (key ∈ (waiters other).budgetKeys)) =
          (isQueued waiters other && decide (key ∈ (waiters other).budgetKeys)) :=
      fun other hne => by rw [hleaving.others other hne]
    simp only [subCounts]
    rw [hlanes.counts key]
    split
    next hkey =>
      have hloss := CountBelow.count_loss hothers hleaving.below
        (by simp [hleaving.counts, hkey]) (by simp [hleaving.not_queued])
      omega
    next hkey =>
      refine CountBelow.count_congr fun other hother => ?_
      by_cases heq : other = waiter
      · simp [heq, hkey]
      · exact hothers other heq

/-- A lane object that changed, with its waiter gone, leaves the rest of the queue in order. -/
theorem dequeue_lane {lane : WaiterLane}
    (hmem : laneId ∈ queue.lanes (waiters waiter).admissionClass (waiters waiter).tier)
    (hroute : laneId.route = (waiters waiter).route)
    (hlane : LaneOk waiters bound (isQueued waiters) laneId lane)
    (hkept : ∀ other ∈ (queue.laneStore laneId).items, isQueued waiters other = true →
      other ∈ lane.items) :
    LanesOk waiters bound (isQueued waiters)
      ((queue.subCounts (waiters waiter).budgetKeys).setLane laneId lane) := by
  obtain ⟨htotal, hcounts⟩ := subCounts_ok hlanes hleaving
  have hself : ((queue.subCounts (waiters waiter).budgetKeys).setLane laneId lane).laneStore
      laneId = lane := setLane_self
  have hstore : ∀ other, other ≠ laneId →
      ((queue.subCounts (waiters waiter).budgetKeys).setLane laneId lane).laneStore other =
        queue.laneStore other := fun other hne => setLane_of_ne hne
  refine ⟨hlanes.ids, hlanes.routes, ?_, ?_, ?_, htotal, hcounts⟩
  · intro admissionClass tier other hother
    by_cases heq : other = laneId
    · rw [heq, hself]
      exact hlane
    · rw [hstore other heq]
      exact (hlanes.live admissionClass tier other hother).others hleaving
        (fun hin => heq (hlanes.own_lane hmem hroute hother hin))
  · intro other hdead
    have hne : other ≠ laneId := by
      intro heq
      obtain ⟨hclass, htier, -⟩ := hlanes.ids _ _ laneId hmem
      refine hdead ?_
      rw [heq, hclass, htier]
      exact hmem
    rw [hstore other hne]
    exact hlanes.dead other hdead
  · intro other hbound hqueued
    obtain ⟨id, hid, hidRoute, hitem⟩ :=
      hlanes.placed other hbound (hleaving.counted_of_queued hqueued)
    refine ⟨id, hid, hidRoute, ?_⟩
    by_cases heq : id = laneId
    · rw [heq, hself]
      exact hkept other (heq ▸ hitem) hqueued
    · rw [hstore id heq]
      exact hitem

end

theorem EligibleOk.setLane (heligible : EligibleOk queue free) {lane : WaiterLane}
    (hbase : lane.baseEligible = (queue.laneStore laneId).baseEligible)
    (hheadroom : lane.headroomEligible = (queue.laneStore laneId).headroomEligible) :
    EligibleOk (queue.setLane laneId lane) free := by
  intro admissionClass tier id hid slotKind
  rw [← heligible admissionClass tier id hid slotKind]
  by_cases heq : id = laneId
  · rw [heq, setLane_self]
    cases slotKind with
    | base => exact hbase
    | headroom => exact hheadroom
  · rw [setLane_of_ne heq]

theorem HeapsOk.subCounts (hheaps : HeapsOk waiters queue none) (keys : List BudgetKey) :
    HeapsOk waiters (queue.subCounts keys) none :=
  ⟨hheaps.base, hheaps.headroom, hheaps.published⟩

section

variable (hlanes : LanesOk waiters bound counted queue) (hheaps : HeapsOk waiters queue none)
  (heligible : EligibleOk queue free) (hleaving : Leaving waiters bound counted waiter)
include hlanes hheaps heligible hleaving

/-- The last waiter of a lane takes the lane with it. -/
theorem dequeue_last {lane : WaiterLane}
    (hmem : laneId ∈ queue.lanes (waiters waiter).admissionClass (waiters waiter).tier)
    (hroute : laneId.route = (waiters waiter).route) (hitems : lane.items = [])
    (hnone : ∀ other ∈ (queue.laneStore laneId).items, isQueued waiters other = false) :
    let next := ((queue.subCounts (waiters waiter).budgetKeys).setLane laneId lane).setLanes
      (waiters waiter).admissionClass (waiters waiter).tier
      ((queue.lanes (waiters waiter).admissionClass (waiters waiter).tier).filter fun other =>
        other.route ≠ (waiters waiter).route)
    LanesOk waiters bound (isQueued waiters) next ∧ HeapsOk waiters next none ∧
      EligibleOk next free := by
  intro next
  obtain ⟨htotal, hcounts⟩ := subCounts_ok hlanes hleaving
  have hself : next.laneStore laneId = lane := setLane_self
  have hstore : ∀ other, other ≠ laneId → next.laneStore other = queue.laneStore other :=
    fun other hne => setLane_of_ne hne
  -- the lanes left are the old ones but for this one
  have hleft : ∀ admissionClass tier other, other ∈ next.lanes admissionClass tier ↔
      other ∈ queue.lanes admissionClass tier ∧ other ≠ laneId := by
    intro admissionClass tier other
    simp only [next, setLanes]
    split
    next heq =>
      rw [heq.1, heq.2, mem_filter]
      refine and_congr_right fun hother => ?_
      simp only [decide_eq_true_eq]
      refine not_congr ⟨fun hsame => ?_, fun hsame => ?_⟩
      · exact hlanes.lane_eq hother hmem (hsame.trans hroute.symm)
      · rw [hsame]
        exact hroute
    next hne =>
      refine ⟨fun hother => ⟨hother, fun heq => hne ?_⟩, fun hboth => hboth.1⟩
      obtain ⟨hclass, htier, -⟩ := hlanes.ids _ _ other hother
      obtain ⟨hclass', htier', -⟩ := hlanes.ids _ _ laneId hmem
      rw [heq] at hclass htier
      exact ⟨hclass.symm.trans hclass', htier.symm.trans htier'⟩
  refine ⟨⟨?_, ?_, ?_, ?_, ?_, htotal, hcounts⟩, ⟨hheaps.base, hheaps.headroom, ?_⟩, ?_⟩
  · intro admissionClass tier other hother
    exact hlanes.ids admissionClass tier other ((hleft _ _ _).mp hother).1
  · intro admissionClass tier
    simp only [next, setLanes]
    split
    · exact (hlanes.routes _ _).sublist (filter_sublist.map _)
    · exact hlanes.routes admissionClass tier
  · intro admissionClass tier other hother
    obtain ⟨hold, hne⟩ := (hleft _ _ _).mp hother
    rw [hstore other hne]
    exact (hlanes.live admissionClass tier other hold).others hleaving
      fun hin => hne (hlanes.own_lane hmem hroute hold hin)
  · intro other hdead
    by_cases heq : other = laneId
    · rw [heq, hself]
      exact hitems
    · rw [hstore other heq]
      exact hlanes.dead other fun hold => hdead ((hleft _ _ _).mpr ⟨hold, heq⟩)
  · intro other hbound hqueued
    obtain ⟨id, hid, hidRoute, hitem⟩ :=
      hlanes.placed other hbound (hleaving.counted_of_queued hqueued)
    have hne : id ≠ laneId := by
      intro heq
      rw [heq] at hitem
      rw [hnone other hitem] at hqueued
      cases hqueued
    refine ⟨id, (hleft _ _ _).mpr ⟨hid, hne⟩, hidRoute, ?_⟩
    rw [hstore id hne]
    exact hitem
  · intro admissionClass tier other hother _
    obtain ⟨hold, hne⟩ := (hleft _ _ _).mp hother
    rw [Published, hstore other hne]
    exact hheaps.published admissionClass tier other hold (by simp)
  · intro admissionClass tier other hother slotKind
    obtain ⟨hold, hne⟩ := (hleft _ _ _).mp hother
    rw [hstore other hne]
    exact heligible admissionClass tier other hold slotKind

/-- A waiter that is no longer queued leaves the queue in order. -/
theorem dequeue_ok : let next := queue.dequeue waiters waiter
    LanesOk waiters bound (isQueued waiters) next ∧ HeapsOk waiters next none ∧
      EligibleOk next free := by
  intro next
  obtain ⟨laneId, hfound, hmem, hroute, hitem⟩ :=
    hlanes.findLane_of_counted hleaving.below hleaving.counts
  have hlane := hlanes.live _ _ laneId hmem
  have hremaining := hlane.remaining hleaving hitem
  have hdef : next = queue.dequeue waiters waiter := rfl
  unfold dequeue at hdef
  dsimp only at hdef
  rw [hfound] at hdef
  dsimp only at hdef
  rw [compact_count] at hdef
  generalize hlaneDef : compact waiters
    { queue.laneStore laneId with count := (queue.laneStore laneId).count - 1 } = lane at hdef
  have hflags := @compact_same waiters
    { queue.laneStore laneId with count := (queue.laneStore laneId).count - 1 }
  rw [hlaneDef] at hflags
  by_cases hleft : (queue.laneStore laneId).count - 1 = 0
  · rw [if_pos hleft] at hdef
    have hnone : ∀ other ∈ (queue.laneStore laneId).items, isQueued waiters other = false := by
      rw [hleft] at hremaining
      intro other hother
      simpa using countP_eq_zero.mp hremaining.symm other hother
    have hempty : (bumpVersion lane).items = [] := by
      rw [← hlaneDef]
      exact compact_empty hleft
    obtain ⟨hl, hh, he⟩ := dequeue_last hlanes hheaps heligible hleaving hmem hroute hempty hnone
    have hsame := @compactCandidateHeaps_same waiters
      (((queue.subCounts (waiters waiter).budgetKeys).setLane laneId (bumpVersion lane)).setLanes
        (waiters waiter).admissionClass (waiters waiter).tier
        ((queue.lanes (waiters waiter).admissionClass (waiters waiter).tier).filter fun other =>
          other.route ≠ (waiters waiter).route))
      (waiters waiter).admissionClass (waiters waiter).tier
    rw [hdef]
    exact ⟨hl.same hsame, hh.compactCandidateHeaps _ _, he.same hsame⟩
  · rw [if_neg hleft] at hdef
    have hcompacted := hlane.compact hleaving hitem hleft
    have hkept : ∀ other ∈ (queue.laneStore laneId).items, isQueued waiters other = true →
        other ∈ lane.items := by
      intro other hother hqueued
      rw [← hlaneDef]
      exact hlane.compact_keeps hleaving hitem hleft hother hqueued
    rw [hlaneDef] at hcompacted
    by_cases hhead : lane.headWaiter = (queue.laneStore laneId).headWaiter
    · rw [if_pos hhead] at hdef
      rw [hdef]
      refine ⟨dequeue_lane hlanes hleaving hmem hroute hcompacted hkept,
        ⟨hheaps.base, hheaps.headroom, ?_⟩, ?_⟩
      · intro admissionClass tier other hother _
        have hpublished := hheaps.published admissionClass tier other hother (by simp)
        by_cases heq : other = laneId
        · subst heq
          have hself : ((queue.subCounts (waiters waiter).budgetKeys).setLane other
              lane).laneStore other = lane := setLane_self
          rw [Published, hself, hhead, hflags.1, hflags.2.1, hflags.2.2]
          exact hpublished
        · have hstore : ((queue.subCounts (waiters waiter).budgetKeys).setLane laneId
              lane).laneStore other = queue.laneStore other := setLane_of_ne heq
          rw [Published, hstore]
          exact hpublished
      · have hcounted : EligibleOk (queue.subCounts (waiters waiter).budgetKeys) free := heligible
        exact hcounted.setLane hflags.1 hflags.2.1
    · rw [if_neg hhead] at hdef
      have hbumped : LaneOk waiters bound (isQueued waiters) laneId (bumpVersion lane) :=
        ⟨hcompacted.nodup, hcompacted.members, hcompacted.count, hcompacted.head, hcompacted.passed⟩
      have hl := dequeue_lane hlanes hleaving hmem hroute hbumped hkept
      have hcounted : EligibleOk (queue.subCounts (waiters waiter).budgetKeys) free := heligible
      have he : EligibleOk ((queue.subCounts (waiters waiter).budgetKeys).setLane laneId
          (bumpVersion lane)) free := hcounted.setLane hflags.1 hflags.2.1
      have hsame : SameLanes ((queue.subCounts (waiters waiter).budgetKeys).setLane laneId
          (bumpVersion lane)) next := by
        rw [hdef]
        exact (publishLaneHead_same laneId).trans (compactCandidateHeaps_same _ _)
      refine ⟨hl.same hsame, ?_, he.same hsame⟩
      rw [hdef]
      exact ((hheaps.subCounts _).setLane laneId
        (bumpVersion lane)).publishLaneHead.compactCandidateHeaps _ _

end

end Dequeue

end WaiterQueue

end Wakii.GitAdmission
