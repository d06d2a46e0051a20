import Wakii.Git.QueueInvariant

/-!
# The operations of the waiter queue

A refresh makes the lanes of a route agree with its budget, an enqueue adds a
waiter to the count and a dequeue takes one away.
-/

namespace Wakii.GitAdmission

open List

namespace WaiterQueue

variable {waiters : WaiterId → AdmissionWaiter} {bound : ℕ} {counted : WaiterId → Bool}
  {queue : WaiterQueue}

section Eligibility

variable {free : AdmissionClass → Option Route → AdmissionSlotKind → Bool}
  {admissionClass : AdmissionClass} {route : Option Route} {tiers : List GitAdmissionTier}

/-- The lanes cache what is free on their route, but for the lanes of one route in some tiers. -/
def EligibleBut (queue : WaiterQueue)
    (free : AdmissionClass → Option Route → AdmissionSlotKind → Bool)
    (admissionClass : AdmissionClass) (route : Option Route) (tiers : List GitAdmissionTier) :
    Prop :=
  ∀ other tier, ∀ id ∈ queue.lanes other tier,
    (other = admissionClass → tier ∈ tiers → id.route ≠ route) →
      ∀ slotKind, (queue.laneStore id).eligible slotKind = free other id.route slotKind

/-- The lanes cache what is free on their route. -/
def EligibleOk (queue : WaiterQueue)
    (free : AdmissionClass → Option Route → AdmissionSlotKind → Bool) : Prop :=
  ∀ admissionClass tier, ∀ id ∈ queue.lanes admissionClass tier,
    ∀ slotKind, (queue.laneStore id).eligible slotKind = free admissionClass id.route slotKind

theorem EligibleOk.same {next : WaiterQueue} (heligible : EligibleOk queue free)
    (hsame : SameLanes queue next) : EligibleOk next free := by
  intro admissionClass tier id hid
  rw [hsame.lanes] at hid
  rw [hsame.laneStore]
  exact heligible admissionClass tier id hid

theorem HeapsOk.setLane (hheaps : HeapsOk waiters queue none) (id : LaneId) (lane : WaiterLane) :
    HeapsOk waiters (queue.setLane id lane) (some id) := by
  refine ⟨hheaps.base, hheaps.headroom, ?_⟩
  intro admissionClass tier other hmem hexempt
  have hne : other ≠ id := fun heq => hexempt (heq ▸ rfl)
  rw [Published, setLane_of_ne hne]
  exact hheaps.published admissionClass tier other hmem (by simp)

/-- What a refresh of one lane leaves as it was. -/
structure Refreshed (queue next : WaiterQueue) : Prop where
  lanes : next.lanes = queue.lanes
  countsByBudget : next.countsByBudget = queue.countsByBudget
  totalCount : next.totalCount = queue.totalCount

section

variable (baseEligible headroomEligible : Bool) (hlanes : LanesOk waiters bound counted queue)
  (hheaps : HeapsOk waiters queue none) (hbase : free admissionClass route .base = baseEligible)
  (hheadroom : free admissionClass route .headroom = headroomEligible)
include hlanes hheaps hbase hheadroom

/-- One tier's lanes are brought up to date, the rest still to come. -/
theorem updateLaneEligibility_ok {tier : GitAdmissionTier} {rest : List GitAdmissionTier}
    (hbut : EligibleBut queue free admissionClass route (tier :: rest)) :
    let next := updateLaneEligibility waiters admissionClass route baseEligible headroomEligible
      queue tier
    LanesOk waiters bound counted next ∧ HeapsOk waiters next none ∧
      EligibleBut next free admissionClass route rest ∧ Refreshed queue next := by
  intro next
  have hnext : next = updateLaneEligibility waiters admissionClass route baseEligible
    headroomEligible queue tier := rfl
  unfold updateLaneEligibility at hnext
  cases hfound : queue.findLane admissionClass tier route with
  | none =>
    rw [hfound] at hnext
    rw [hnext]
    refine ⟨hlanes, hheaps, ?_, rfl, rfl, rfl⟩
    intro other otherTier id hid hrest
    refine hbut other otherTier id hid fun hclass htier hroute => ?_
    cases htier with
    | head => exact findLane_none hfound id (hclass ▸ hid) hroute
    | tail _ htier => exact hrest hclass htier hroute
  | some found =>
    obtain ⟨hmem, hroute⟩ := findLane_some hfound
    rw [hfound] at hnext
    dsimp only at hnext
    -- a lane of another class, tier or route is another object
    have hother : ∀ other otherTier, ∀ id ∈ queue.lanes other otherTier, id ≠ found →
        (other = admissionClass → otherTier ∈ rest → id.route ≠ route) →
        ∀ slotKind, (queue.laneStore id).eligible slotKind = free other id.route slotKind := by
      intro other otherTier id hid hne hrest
      refine hbut other otherTier id hid fun hclass htier hsame => ?_
      cases htier with
      | head =>
        rw [hclass] at hid
        exact hne (hlanes.lane_eq hid hmem (hsame.trans hroute.symm))
      | tail _ htier => exact hrest hclass htier hsame
    have hfoundClass : ∀ other otherTier, found ∈ queue.lanes other otherTier →
        other = admissionClass := fun other otherTier hin =>
      ((hlanes.ids other otherTier found hin).1).symm.trans
        (hlanes.ids admissionClass tier found hmem).1
    split_ifs at hnext with heq
    · rw [hnext]
      refine ⟨hlanes, hheaps, ?_, rfl, rfl, rfl⟩
      intro other otherTier id hid hrest
      by_cases hne : id = found
      · subst hne
        rw [hfoundClass other otherTier hid, hroute]
        intro slotKind
        cases slotKind with
        | base => exact heq.1.trans hbase.symm
        | headroom => exact heq.2.trans hheadroom.symm
      · exact hother other otherTier id hid hne hrest
    · generalize hlane : bumpVersion _ = lane at hnext
      have hset : LanesOk waiters bound counted (queue.setLane found lane) :=
        hlanes.setLane (by rw [← hlane]; rfl) (by rw [← hlane]; rfl) (by rw [← hlane]; rfl)
      have hsame : SameLanes (queue.setLane found lane) next := by
        rw [hnext]
        exact (publishLaneHead_same found).trans (compactCandidateHeaps_same _ _)
      refine ⟨hset.same hsame, ?_, ?_, hsame.lanes, hsame.countsByBudget, hsame.totalCount⟩
      · rw [hnext]
        exact (hheaps.setLane found lane).publishLaneHead.compactCandidateHeaps _ _
      · intro other otherTier id hid hrest
        rw [hsame.lanes] at hid
        rw [hsame.laneStore]
        by_cases hne : id = found
        · subst hne
          rw [setLane_self, hfoundClass other otherTier hid, hroute]
          intro slotKind
          cases slotKind with
          | base =>
            rw [← hlane]
            exact hbase.symm
          | headroom =>
            rw [← hlane]
            exact hheadroom.symm
        · rw [setLane_of_ne hne]
          exact hother other otherTier id hid hne hrest

/-- A refresh makes the lanes of the route agree with its budget. -/
theorem updateRouteEligibility_ok (hbut : EligibleBut queue free admissionClass route TIERS) :
    let next := queue.updateRouteEligibility waiters admissionClass route baseEligible
      headroomEligible
    LanesOk waiters bound counted next ∧ HeapsOk waiters next none ∧ EligibleOk next free ∧
      Refreshed queue next := by
  have hfold : ∀ (tiers : List GitAdmissionTier) (current : WaiterQueue),
      LanesOk waiters bound counted current → HeapsOk waiters current none →
      EligibleBut current free admissionClass route tiers → Refreshed queue current →
      let next := tiers.foldl (updateLaneEligibility waiters admissionClass route baseEligible
        headroomEligible) current
      LanesOk waiters bound counted next ∧ HeapsOk waiters next none ∧
        EligibleBut next free admissionClass route [] ∧ Refreshed queue next := by
    intro tiers
    induction tiers with
    | nil => exact fun current hl hh hb hr => ⟨hl, hh, hb, hr⟩
    | cons tier rest ih =>
      intro current hl hh hb hr
      obtain ⟨hl', hh', hb', hr'⟩ :=
        updateLaneEligibility_ok baseEligible headroomEligible hl hh hbase hheadroom hb
      exact ih _ hl' hh' hb' ⟨hr'.lanes.trans hr.lanes,
        hr'.countsByBudget.trans hr.countsByBudget, hr'.totalCount.trans hr.totalCount⟩
  obtain ⟨hl, hh, hb, hr⟩ := hfold TIERS queue hlanes hheaps hbut ⟨rfl, rfl, rfl⟩
  refine ⟨hl, hh, fun other tier id hid => ?_, hr⟩
  exact hb other tier id hid fun _ hmem => absurd hmem not_mem_nil

end

end Eligibility

section Peek

variable (admissionClass : AdmissionClass) (tiers : List GitAdmissionTier)

theorem peekBase_ok (tier : GitAdmissionTier) (hheaps : HeapsOk waiters queue none) :
    SameLanes queue (queue.peekBase waiters admissionClass tier).1 ∧
      HeapsOk waiters (queue.peekBase waiters admissionClass tier).1 none ∧
      (∀ candidate ∈ (queue.peekBase waiters admissionClass tier).2,
        queue.candidateIsValid waiters .base candidate = true ∧
          candidate.lane.admissionClass = admissionClass ∧ candidate.lane.tier = tier) ∧
      ((queue.peekBase waiters admissionClass tier).2 = none →
        ∀ candidate ∈ queue.baseCandidates admissionClass tier,
          queue.candidateIsValid waiters .base candidate = false) := by
  obtain ⟨hsub, hkept, hfirst, hnone⟩ := @BinaryHeap.peek_spec _ Candidate.waiter
    (queue.candidateIsValid waiters .base) (queue.baseCandidates admissionClass tier)
  refine ⟨setBase_same _ _ _, ?_, fun candidate hmem => ?_, hnone⟩
  · exact hheaps.setBase (fun candidate hmem =>
      hheaps.base admissionClass tier candidate (hsub candidate hmem)) hkept
  · obtain ⟨hvalid, hin⟩ := hfirst candidate hmem
    exact ⟨hvalid, hheaps.base admissionClass tier candidate hin⟩

theorem peekHeadroom_ok (hheaps : HeapsOk waiters queue none) :
    SameLanes queue (queue.peekHeadroom waiters admissionClass).1 ∧
      HeapsOk waiters (queue.peekHeadroom waiters admissionClass).1 none ∧
      (∀ candidate ∈ (queue.peekHeadroom waiters admissionClass).2,
        queue.candidateIsValid waiters .headroom candidate = true ∧
          candidate.lane.admissionClass = admissionClass ∧
          candidate.lane.tier = .interactive) ∧
      ((queue.peekHeadroom waiters admissionClass).2 = none →
        ∀ candidate ∈ queue.headroomCandidates admissionClass,
          queue.candidateIsValid waiters .headroom candidate = false) := by
  obtain ⟨hsub, hkept, hfirst, hnone⟩ := @BinaryHeap.peek_spec _ Candidate.waiter
    (queue.candidateIsValid waiters .headroom) (queue.headroomCandidates admissionClass)
  refine ⟨setHeadroom_same _ _, ?_, fun candidate hmem => ?_, hnone⟩
  · exact hheaps.setHeadroom (fun candidate hmem =>
      hheaps.headroom admissionClass candidate (hsub candidate hmem)) hkept
  · obtain ⟨hvalid, hin⟩ := hfirst candidate hmem
    exact ⟨hvalid, hheaps.headroom admissionClass candidate hin⟩

/-- A waiter a valid candidate stands for: the head of a lane eligible for the slot. -/
structure Eligible (waiters : WaiterId → AdmissionWaiter) (queue : WaiterQueue)
    (admissionClass : AdmissionClass) (selected : SelectedWaiter) (id : LaneId) : Prop where
  head : (queue.laneStore id).headWaiter = some selected.waiter
  queued : isQueued waiters selected.waiter = true
  eligible : (queue.laneStore id).eligible selected.slotKind = true
  admissionClass : id.admissionClass = admissionClass
  tier : selected.slotKind = .headroom → id.tier = .interactive

theorem candidateIsValid_same {next : WaiterQueue} (hsame : SameLanes queue next)
    (slotKind : AdmissionSlotKind) (candidate : Candidate) :
    next.candidateIsValid waiters slotKind candidate =
      queue.candidateIsValid waiters slotKind candidate := by
  rw [candidateIsValid, candidateIsValid, hsame.laneStore]

theorem Eligible.same {next : WaiterQueue} (hsame : SameLanes queue next)
    {admissionClass : AdmissionClass} {selected : SelectedWaiter} {id : LaneId}
    (h : Eligible waiters next admissionClass selected id) :
    Eligible waiters queue admissionClass selected id := by
  have hstore := hsame.laneStore
  exact ⟨hstore ▸ h.head, h.queued, hstore ▸ h.eligible, h.admissionClass, h.tier⟩

/-- Whether a heap shows nothing though a lane of its tier is eligible. -/
theorem Published.not_invalid {id : LaneId} (hpublished : Published waiters queue id)
    {waiter : WaiterId} (hhead : (queue.laneStore id).headWaiter = some waiter)
    (hqueued : isQueued waiters waiter = true) :
    ((∀ candidate ∈ queue.baseCandidates id.admissionClass id.tier,
        queue.candidateIsValid waiters .base candidate = false) →
      (queue.laneStore id).baseEligible = false) ∧
    ((∀ candidate ∈ queue.headroomCandidates id.admissionClass,
        queue.candidateIsValid waiters .headroom candidate = false) →
      id.tier = .interactive → (queue.laneStore id).headroomEligible = false) := by
  obtain ⟨hbase, hheadroom⟩ := hpublished waiter hhead hqueued
  refine ⟨fun hinvalid => ?_, fun hinvalid htier => ?_⟩
  · cases heligible : (queue.laneStore id).baseEligible with
    | false => rfl
    | true =>
      have hvalid := @candidateIsValid_head waiters queue .base id waiter hhead hqueued heligible
      rw [hinvalid _ (hbase heligible)] at hvalid
      cases hvalid
  · cases heligible : (queue.laneStore id).headroomEligible with
    | false => rfl
    | true =>
      have hvalid :=
        @candidateIsValid_head waiters queue .headroom id waiter hhead hqueued heligible
      rw [hinvalid _ (hheadroom htier heligible)] at hvalid
      cases hvalid

/-- Peeking at some tiers of a class shows eligible heads, or none where the tier has none. -/
theorem peekTiers_ok (hheaps : HeapsOk waiters queue none) :
    SameLanes queue (peekTiers waiters admissionClass queue tiers).1 ∧
      HeapsOk waiters (peekTiers waiters admissionClass queue tiers).1 none ∧
      (∀ selected ∈ (peekTiers waiters admissionClass queue tiers).2,
        ∃ id, Eligible waiters queue admissionClass selected id) ∧
      ((peekTiers waiters admissionClass queue tiers).2 = [] →
        ∀ tier ∈ tiers, ∀ candidate ∈ queue.baseCandidates admissionClass tier,
          queue.candidateIsValid waiters .base candidate = false) := by
  induction tiers generalizing queue with
  | nil =>
    exact ⟨SameLanes.refl queue, hheaps, fun _ h => (by cases h), fun _ _ h => by cases h⟩
  | cons tier rest ih =>
    obtain ⟨hsame, hheaps', hfirst, hnone⟩ := peekBase_ok admissionClass tier hheaps
    obtain ⟨hsame', hheaps'', hothers, hempty⟩ := ih hheaps'
    have hchanged : ∀ other, other ≠ tier →
        (queue.peekBase waiters admissionClass tier).1.baseCandidates admissionClass other =
          queue.baseCandidates admissionClass other := by
      intro other hne
      simp [peekBase, WaiterQueue.setBase, hne]
    unfold peekTiers
    dsimp only
    refine ⟨hsame.trans hsame', hheaps'', ?_, ?_⟩
    · intro selected hmem
      cases mem_append.mp hmem with
      | inl hhere =>
        obtain ⟨candidate, hcandidate, rfl⟩ := mem_map.mp hhere
        obtain ⟨hvalid, hclass, -⟩ := hfirst candidate (Option.mem_toList.mp hcandidate)
        obtain ⟨-, hhead, hqueued, heligible⟩ := candidateIsValid_iff.mp hvalid
        exact ⟨candidate.lane, hhead, hqueued, heligible, hclass, fun h => by cases h⟩
      | inr hthere =>
        obtain ⟨id, heligible⟩ := hothers selected hthere
        exact ⟨id, heligible.same hsame⟩
    · intro hall other hmem candidate hcandidate
      obtain ⟨hhere, hthere⟩ := append_eq_nil_iff.mp hall
      have hnothing : (queue.peekBase waiters admissionClass tier).2 = none := by
        cases hcase : (queue.peekBase waiters admissionClass tier).2 with
        | none => rfl
        | some first =>
          rw [hcase] at hhere
          cases hhere
      by_cases heq : other = tier
      · subst heq
        exact hnone hnothing candidate hcandidate
      · have hrest : other ∈ rest := by
          cases hmem with
          | head => exact absurd rfl heq
          | tail _ hrest => exact hrest
        rw [← candidateIsValid_same hsame]
        exact hempty hthere other hrest candidate (by rwa [hchanged other heq])

theorem peekTiers_slotKind :
    ∀ selected ∈ (peekTiers waiters admissionClass queue tiers).2, selected.slotKind = .base := by
  induction tiers generalizing queue with
  | nil => exact fun _ h => by cases h
  | cons tier rest ih =>
    intro selected hmem
    cases mem_append.mp hmem with
    | inl hhere =>
      obtain ⟨candidate, -, rfl⟩ := mem_map.mp hhere
      rfl
    | inr hthere => exact ih selected hthere

theorem peekTiers_headroom : (peekTiers waiters admissionClass queue tiers).1.headroomCandidates =
      queue.headroomCandidates := by
  induction tiers generalizing queue with
  | nil => rfl
  | cons tier rest ih => exact ih

theorem headroom_eligible {admissionClass : AdmissionClass} {candidate : Candidate}
    (hcandidate : queue.candidateIsValid waiters .headroom candidate = true ∧
      candidate.lane.admissionClass = admissionClass ∧ candidate.lane.tier = .interactive) :
    Eligible waiters queue admissionClass ⟨candidate.waiter, .headroom⟩ candidate.lane := by
  obtain ⟨hvalid, hclass, htier⟩ := hcandidate
  obtain ⟨-, hhead, hqueued, heligible⟩ := candidateIsValid_iff.mp hvalid
  exact ⟨hhead, hqueued, heligible, hclass, fun _ => htier⟩

/-- The candidates of a class are heads of eligible lanes, and there are none only when no lane
of the class is eligible for a slot that may be used. -/
theorem fittingCandidates_ok (allowBase allowHeadroom : Bool)
    (hheaps : HeapsOk waiters queue none) :
    let peeked := queue.fittingCandidates waiters admissionClass allowBase allowHeadroom
    SameLanes queue peeked.1 ∧ HeapsOk waiters peeked.1 none ∧
      (∀ selected ∈ peeked.2, ∃ id, Eligible waiters queue admissionClass selected id ∧
        (match selected.slotKind with
          | .base => allowBase
          | .headroom => allowHeadroom) = true) ∧
      (peeked.2 = [] →
        (allowBase = true → ∀ tier, ∀ candidate ∈ queue.baseCandidates admissionClass tier,
          queue.candidateIsValid waiters .base candidate = false) ∧
        (allowHeadroom = true → ∀ candidate ∈ queue.headroomCandidates admissionClass,
          queue.candidateIsValid waiters .headroom candidate = false)) := by
  obtain ⟨hsame, hpeeked, hbases, hnoBase⟩ :=
    @peekTiers_ok waiters queue admissionClass TIERS hheaps
  have hallTiers : ∀ tier, tier ∈ TIERS := by
    intro tier
    cases tier <;> decide
  have hslot : ∀ selected ∈ (peekTiers waiters admissionClass queue TIERS).2,
      selected.slotKind = .base := peekTiers_slotKind admissionClass TIERS
  intro peeked
  have hresult : peeked = queue.fittingCandidates waiters admissionClass allowBase allowHeadroom :=
    rfl
  unfold fittingCandidates at hresult
  cases allowBase with
  | false =>
    cases allowHeadroom with
    | false =>
      rw [hresult]
      exact ⟨SameLanes.refl queue, hheaps, fun _ h => (by cases h),
        fun _ => ⟨fun h => (by cases h), fun h => by cases h⟩⟩
    | true =>
      obtain ⟨hsame', hheaps', hfirst, hnone⟩ := peekHeadroom_ok admissionClass hheaps
      rw [hresult]
      refine ⟨hsame', hheaps', ?_, ?_⟩
      · intro selected hmem
        obtain ⟨candidate, hcandidate, rfl⟩ := mem_map.mp hmem
        exact ⟨candidate.lane,
          headroom_eligible (hfirst candidate (Option.mem_toList.mp hcandidate)), rfl⟩
      · intro hempty
        exact ⟨fun h => (by cases h), fun _ =>
          hnone (Option.toList_eq_nil_iff.mp (map_eq_nil_iff.mp hempty))⟩
  | true =>
    cases allowHeadroom with
    | false =>
      rw [hresult]
      refine ⟨hsame, hpeeked, ?_, ?_⟩
      · intro selected hmem
        obtain ⟨id, heligible⟩ := hbases selected hmem
        exact ⟨id, heligible, by rw [hslot selected hmem]⟩
      · intro hempty
        exact ⟨fun _ tier => hnoBase hempty tier (hallTiers tier), fun h => by cases h⟩
    | true =>
      obtain ⟨hsame', hheaps', hfirst, hnone⟩ := peekHeadroom_ok admissionClass hpeeked
      have hheadroomSame : (peekTiers waiters admissionClass queue TIERS).1.headroomCandidates =
          queue.headroomCandidates := peekTiers_headroom admissionClass TIERS
      rw [hresult]
      refine ⟨hsame.trans hsame', hheaps', ?_, ?_⟩
      · intro selected hmem
        cases mem_append.mp hmem with
        | inl hbase =>
          obtain ⟨id, heligible⟩ := hbases selected hbase
          exact ⟨id, heligible, by rw [hslot selected hbase]⟩
        | inr hheadroom =>
          obtain ⟨candidate, hcandidate, rfl⟩ := mem_map.mp hheadroom
          have heligible := headroom_eligible (hfirst candidate (Option.mem_toList.mp hcandidate))
          exact ⟨candidate.lane, heligible.same hsame, rfl⟩
      · intro hempty
        obtain ⟨hnoBases, hnoHeadroom⟩ := append_eq_nil_iff.mp hempty
        refine ⟨fun _ tier => hnoBase hnoBases tier (hallTiers tier), fun _ candidate hmem => ?_⟩
        rw [← candidateIsValid_same hsame]
        refine hnone ?_ candidate (by rwa [hheadroomSame])
        exact Option.toList_eq_nil_iff.mp (map_eq_nil_iff.mp hnoHeadroom)

end Peek

section Enqueue

variable {id : LaneId} {lane : WaiterLane}

section

variable (hlane : LaneOk waiters bound counted id lane)
include hlane

theorem LaneOk.mono : LaneOk waiters (bound + 1) counted id lane := ⟨hlane.nodup, fun waiter hmem =>
    ⟨Nat.lt_succ_of_lt (hlane.members waiter hmem).1, (hlane.members waiter hmem).2⟩,
    hlane.count, hlane.head, hlane.passed⟩

theorem LaneOk.head_lt : lane.head < lane.items.length := by
  obtain ⟨first, hfirst, -⟩ := hlane.head
  exact (List.getElem?_eq_some_iff.mp hfirst).1

theorem LaneOk.push (hbelongs : BelongsTo id (waiters bound)) (hcounted : counted bound = true) :
    LaneOk waiters (bound + 1) counted id (pushWaiter lane bound) := by
  have hhead := hlane.head_lt
  refine ⟨?_, ?_, ?_, ?_, ?_⟩
  · refine nodup_append.mpr ⟨hlane.nodup, nodup_singleton bound, ?_⟩
    intro waiter hmem other hother heq
    have hbelow := (hlane.members waiter hmem).1
    rw [heq, mem_singleton.mp hother] at hbelow
    exact Nat.lt_irrefl _ hbelow
  · intro waiter hmem
    cases mem_append.mp hmem with
    | inl hold => exact hlane.mono.members waiter hold
    | inr hnew =>
      rw [mem_singleton.mp hnew]
      exact ⟨Nat.lt_succ_self bound, hbelongs⟩
  · rw [pushWaiter]
    dsimp only
    rw [countP_append, hlane.count, countP_singleton, hcounted]
    rfl
  · obtain ⟨first, hfirst, hfirstCounted⟩ := hlane.head
    refine ⟨first, ?_, hfirstCounted⟩
    rw [WaiterLane.headWaiter, pushWaiter]
    dsimp only
    rw [getElem?_append_left hhead]
    exact hfirst
  · rw [pushWaiter]
    dsimp only
    rw [take_append_of_le_length (Nat.le_of_lt hhead)]
    exact hlane.passed

end

theorem LaneOk.first (hbelongs : BelongsTo id (waiters bound)) (hcounted : counted bound = true) :
    LaneOk waiters (bound + 1) counted id (pushWaiter createLane bound) := by
  refine ⟨nodup_singleton bound, ?_, ?_, ⟨bound, rfl, hcounted⟩, fun _ h => by cases h⟩
  · intro waiter hmem
    rw [mem_singleton.mp hmem]
    exact ⟨Nat.lt_succ_self bound, hbelongs⟩
  · simp [pushWaiter, createLane, hcounted]

section

variable (hlanes : LanesOk waiters bound counted queue)
include hlanes

/-- The lane a waiter joins: one in use, or a new one. -/
theorem laneFor_cases (waiter : AdmissionWaiter) : let made := queue.laneFor waiter
    BelongsTo made.2 waiter ∧
      ((made.1 = queue ∧ made.2 ∈ queue.lanes waiter.admissionClass waiter.tier) ∨
        (made.1.laneStore made.2 = createLane ∧
          (∀ other, other ≠ made.2 → made.1.laneStore other = queue.laneStore other) ∧
          made.1.lanes = (fun admissionClass tier =>
            if admissionClass = waiter.admissionClass ∧ tier = waiter.tier then
              queue.lanes waiter.admissionClass waiter.tier ++ [made.2]
            else queue.lanes admissionClass tier) ∧
          made.2.serial = queue.nextSerial ∧ made.1.nextSerial = queue.nextSerial + 1 ∧
          (∀ other ∈ queue.lanes waiter.admissionClass waiter.tier, other.route ≠ waiter.route) ∧
          made.1.countsByBudget = queue.countsByBudget ∧
          made.1.totalCount = queue.totalCount ∧
          made.1.baseCandidates = queue.baseCandidates ∧
          made.1.headroomCandidates = queue.headroomCandidates)) := by
  intro made
  have hmade : made = queue.laneFor waiter := rfl
  unfold laneFor at hmade
  cases hfound : queue.findLane waiter.admissionClass waiter.tier waiter.route with
  | some found =>
    rw [hfound] at hmade
    rw [hmade]
    obtain ⟨hmem, hroute⟩ := findLane_some hfound
    obtain ⟨hclass, htier, -⟩ := hlanes.ids _ _ found hmem
    exact ⟨⟨hclass.symm, htier.symm, hroute.symm⟩, .inl ⟨rfl, hmem⟩⟩
  | none =>
    rw [hfound] at hmade
    rw [hmade]
    refine ⟨⟨rfl, rfl, rfl⟩, .inr ⟨setLane_self, fun other hne => ?_, rfl, rfl, rfl,
      findLane_none hfound, rfl, rfl, rfl, rfl⟩⟩
    exact setLane_of_ne hne

theorem counts_succ (hcounted : counted bound = true) (key : BudgetKey) :
    (queue.addCounts (waiters bound).budgetKeys).countsByBudget key = CountBelow.count
        (fun waiter => counted waiter && decide (key ∈ (waiters waiter).budgetKeys))
        (bound + 1) := by
  rw [CountBelow.count, ← hlanes.counts key, hcounted]
  simp only [addCounts, Bool.true_and, decide_eq_true_eq]
  split <;> rfl

/-- A waiter enters a lane that stands already. -/
theorem enqueue_existing {laneId : LaneId}
    (hheaps : HeapsOk waiters queue none) (hcounted : counted bound = true)
    (hbelongs : BelongsTo laneId (waiters bound))
    (hmem : laneId ∈ queue.lanes (waiters bound).admissionClass (waiters bound).tier) :
    let next := (queue.setLane laneId (pushWaiter (queue.laneStore laneId) bound)).addCounts
      (waiters bound).budgetKeys
    LanesOk waiters (bound + 1) counted next ∧ HeapsOk waiters next none := by
  intro next
  have hlane := hlanes.live _ _ laneId hmem
  have hpushed := hlane.push hbelongs hcounted
  have hstore : ∀ other, other ≠ laneId → next.laneStore other = queue.laneStore other :=
    fun other hne => setLane_of_ne hne
  have hself : next.laneStore laneId = pushWaiter (queue.laneStore laneId) bound := setLane_self
  refine ⟨⟨hlanes.ids, hlanes.routes, ?_, ?_, ?_, ?_, ?_⟩, hheaps.base, hheaps.headroom, ?_⟩
  · intro admissionClass tier other hother
    by_cases heq : other = laneId
    · rw [heq, hself]
      exact hpushed
    · rw [hstore other heq]
      exact (hlanes.live admissionClass tier other hother).mono
  · intro other hdead
    have hne : other ≠ laneId := by
      intro heq
      obtain ⟨hclass, htier, -⟩ := hbelongs
      refine hdead ?_
      rw [heq, ← hclass, ← htier]
      exact hmem
    rw [hstore other hne]
    exact hlanes.dead other hdead
  · intro waiter hbound hcount
    by_cases heq : waiter = bound
    · subst heq
      refine ⟨laneId, hmem, hbelongs.2.2.symm, ?_⟩
      rw [hself]
      exact mem_append_right _ mem_cons_self
    · obtain ⟨other, hother, hroute, hitem⟩ := hlanes.placed waiter (by omega) hcount
      refine ⟨other, hother, hroute, ?_⟩
      by_cases hsame : other = laneId
      · rw [hsame, hself]
        exact mem_append_left _ (hsame ▸ hitem)
      · rw [hstore other hsame]
        exact hitem
  · rw [CountBelow.count, ← hlanes.total, hcounted]
    rfl
  · have hcounts := counts_succ hlanes hcounted
    exact hcounts
  · intro admissionClass tier other hother _
    have hpublished := hheaps.published admissionClass tier other hother (by simp)
    by_cases heq : other = laneId
    · subst heq
      rw [Published, hself]
      intro waiter hhead
      rw [WaiterLane.headWaiter, pushWaiter] at hhead
      dsimp only at hhead
      rw [getElem?_append_left hlane.head_lt] at hhead
      exact hpublished waiter hhead
    · rw [Published, hstore other heq]
      exact hpublished

/-- A waiter enters a lane made for it alone. -/
theorem enqueue_fresh {made : WaiterQueue} {laneId : LaneId} (hheaps : HeapsOk waiters queue none)
    (hcounted : counted bound = true) (hbelongs : BelongsTo laneId (waiters bound))
    (hcreated : made.laneStore laneId = createLane)
    (hothers : ∀ other, other ≠ laneId → made.laneStore other = queue.laneStore other)
    (hmade : made.lanes = fun admissionClass tier =>
      if admissionClass = (waiters bound).admissionClass ∧ tier = (waiters bound).tier then
        queue.lanes (waiters bound).admissionClass (waiters bound).tier ++ [laneId]
      else queue.lanes admissionClass tier)
    (hserial : laneId.serial = queue.nextSerial) (hnext : made.nextSerial = queue.nextSerial + 1)
    (hroutes : ∀ other ∈ queue.lanes (waiters bound).admissionClass (waiters bound).tier,
      other.route ≠ (waiters bound).route)
    (hcounts : made.countsByBudget = queue.countsByBudget)
    (htotal : made.totalCount = queue.totalCount)
    (hbase : made.baseCandidates = queue.baseCandidates)
    (hheadroom : made.headroomCandidates = queue.headroomCandidates) :
    let next := (made.setLane laneId (pushWaiter (made.laneStore laneId) bound)).addCounts
      (waiters bound).budgetKeys
    LanesOk waiters (bound + 1) counted next ∧ HeapsOk waiters next (some laneId) := by
  intro next
  have hself : next.laneStore laneId = pushWaiter createLane bound := by
    rw [← hcreated]
    exact setLane_self
  have hstore : ∀ other, other ≠ laneId → next.laneStore other = queue.laneStore other :=
    fun other hne => (setLane_of_ne hne).trans (hothers other hne)
  have hmem : ∀ admissionClass tier other, other ∈ next.lanes admissionClass tier ↔
        other ∈ queue.lanes admissionClass tier ∨
          (admissionClass = (waiters bound).admissionClass ∧ tier = (waiters bound).tier) ∧
            other = laneId := by
    intro admissionClass tier other
    change other ∈ made.lanes admissionClass tier ↔ _
    rw [hmade]
    dsimp only
    split
    next heq =>
      rw [mem_append, mem_singleton, heq.1, heq.2]
      simp
    next hne => simp [hne]
  have hfresh : ∀ admissionClass tier, laneId ∉ queue.lanes admissionClass tier := by
    intro admissionClass tier hin
    have hbelow := (hlanes.ids admissionClass tier laneId hin).2.2
    omega
  have hserials : next.nextSerial = queue.nextSerial + 1 := hnext
  refine ⟨⟨?_, ?_, ?_, ?_, ?_, ?_, ?_⟩, ?_, ?_, ?_⟩
  · intro admissionClass tier other hother
    cases (hmem admissionClass tier other).mp hother with
    | inl hold =>
      obtain ⟨hclass, htier, hbelow⟩ := hlanes.ids admissionClass tier other hold
      exact ⟨hclass, htier, by omega⟩
    | inr hnew =>
      obtain ⟨⟨hclass, htier⟩, heq⟩ := hnew
      rw [heq]
      exact ⟨hbelongs.1.symm.trans hclass.symm, hbelongs.2.1.symm.trans htier.symm, by omega⟩
  · intro admissionClass tier
    change ((made.lanes admissionClass tier).map LaneId.route).Nodup
    rw [hmade]
    dsimp only
    split
    · rw [map_append, map_singleton]
      refine nodup_append.mpr ⟨hlanes.routes _ _, nodup_singleton _, ?_⟩
      intro route hroute other hother heq
      obtain ⟨old, hold, rfl⟩ := mem_map.mp hroute
      rw [mem_singleton.mp hother, ← hbelongs.2.2] at heq
      exact hroutes old hold heq
    · exact hlanes.routes admissionClass tier
  · intro admissionClass tier other hother
    cases (hmem admissionClass tier other).mp hother with
    | inl hold =>
      have hne : other ≠ laneId := fun heq => hfresh admissionClass tier (heq ▸ hold)
      rw [hstore other hne]
      exact (hlanes.live admissionClass tier other hold).mono
    | inr hnew =>
      rw [hnew.2, hself]
      exact LaneOk.first hbelongs hcounted
  · intro other hdead
    have hne : other ≠ laneId := by
      intro heq
      refine hdead ((hmem _ _ _).mpr (.inr ⟨?_, heq⟩))
      rw [heq]
      exact ⟨hbelongs.1.symm, hbelongs.2.1.symm⟩
    rw [hstore other hne]
    exact hlanes.dead other fun hold => hdead ((hmem _ _ _).mpr (.inl hold))
  · intro waiter hbound hcount
    by_cases heq : waiter = bound
    · subst heq
      refine ⟨laneId, (hmem _ _ _).mpr (.inr ⟨⟨rfl, rfl⟩, rfl⟩), hbelongs.2.2.symm, ?_⟩
      rw [hself]
      exact mem_cons_self
    · obtain ⟨other, hother, hroute, hitem⟩ := hlanes.placed waiter (by omega) hcount
      refine ⟨other, (hmem _ _ _).mpr (.inl hother), hroute, ?_⟩
      rw [hstore other fun hsame => hfresh _ _ (hsame ▸ hother)]
      exact hitem
  · rw [CountBelow.count, ← hlanes.total, hcounted]
    change made.totalCount + 1 = _
    rw [htotal]
    rfl
  · intro key
    rw [← counts_succ hlanes hcounted key]
    simp only [next, addCounts, WaiterQueue.setLane, hcounts]
  · change ∀ admissionClass tier, ∀ candidate ∈ made.baseCandidates admissionClass tier, _
    rw [hbase]
    exact hheaps.base
  · change ∀ admissionClass, ∀ candidate ∈ made.headroomCandidates admissionClass, _
    rw [hheadroom]
    exact hheaps.headroom
  · intro admissionClass tier other hother hexempt
    have hne : other ≠ laneId := fun heq => hexempt (heq ▸ rfl)
    have hold : other ∈ queue.lanes admissionClass tier := by
      cases (hmem admissionClass tier other).mp hother with
      | inl hold => exact hold
      | inr hnew => exact absurd hnew.2 hne
    have hpublished := hheaps.published admissionClass tier other hold (by simp)
    rw [Published, hstore other hne]
    change ∀ waiter, _ → _ → (_ → _ ∈ made.baseCandidates _ _) ∧
      (_ → _ → _ ∈ made.headroomCandidates _)
    rw [hbase, hheadroom]
    exact hpublished

/-- The next waiter joins the queue; only the lanes of its route may now be out of date. -/
theorem enqueue_ok {free : AdmissionClass → Option Route → AdmissionSlotKind → Bool}
    (hheaps : HeapsOk waiters queue none)
    (heligible : EligibleOk queue free) (hcounted : counted bound = true) :
    let next := queue.enqueue waiters bound
    LanesOk waiters (bound + 1) counted next ∧ HeapsOk waiters next none ∧
      EligibleBut next free (waiters bound).admissionClass (waiters bound).route TIERS := by
  intro next
  have hallTiers : ∀ tier, tier ∈ TIERS := by
    intro tier
    cases tier <;> decide
  obtain ⟨hbelongs, hcases⟩ := laneFor_cases hlanes (waiters bound)
  have hdef : next = queue.enqueue waiters bound := rfl
  unfold enqueue at hdef
  dsimp only at hdef
  generalize hlane : queue.laneFor (waiters bound) = result at hdef hbelongs hcases
  obtain ⟨made, laneId⟩ := result
  dsimp only at hdef hbelongs hcases
  cases hcases with
  | inl hexisting =>
    obtain ⟨hmade, hmem⟩ := hexisting
    subst hmade
    obtain ⟨hl, hh⟩ := enqueue_existing hlanes hheaps hcounted hbelongs hmem
    -- the lane had a waiter already, so it is not published again
    have hmore : (pushWaiter (made.laneStore laneId) bound).count ≠ 1 := by
      obtain ⟨first, hfirst, hfirstCounted⟩ := (hlanes.live _ _ laneId hmem).head
      have hcount := (hlanes.live _ _ laneId hmem).count
      have hpos : 0 < (made.laneStore laneId).items.countP counted :=
        countP_pos_iff.mpr ⟨first, mem_of_getElem? hfirst, hfirstCounted⟩
      rw [pushWaiter]
      dsimp only
      omega
    rw [if_neg hmore] at hdef
    rw [hdef]
    refine ⟨hl, hh, fun other tier id hid hexempt => ?_⟩
    have hne : id ≠ laneId := by
      intro heq
      subst heq
      have hids := hlanes.ids other tier id hid
      exact hexempt (hids.1.symm.trans hbelongs.1.symm) (hallTiers tier) hbelongs.2.2.symm
    have hstore : ((made.setLane laneId (pushWaiter (made.laneStore laneId) bound)).addCounts
        (waiters bound).budgetKeys).laneStore id = made.laneStore id := setLane_of_ne hne
    rw [hstore]
    exact heligible other tier id hid
  | inr hfresh =>
    obtain ⟨hcreated, hothers, hlanesMade, hserial, hnext, hroutes, hcounts, htotal, hbase,
      hheadroom⟩ := hfresh
    obtain ⟨hl, hh⟩ := enqueue_fresh hlanes hheaps hcounted hbelongs hcreated hothers hlanesMade
      hserial hnext hroutes hcounts htotal hbase hheadroom
    rw [if_pos (by rw [hcreated]; rfl)] at hdef
    have hsame := @publishLaneHead_same waiters ((made.setLane laneId
      (pushWaiter (made.laneStore laneId) bound)).addCounts (waiters bound).budgetKeys) laneId
    rw [← hdef] at hsame
    refine ⟨hl.same hsame, hdef ▸ hh.publishLaneHead, fun other tier id hid hexempt => ?_⟩
    rw [hsame.lanes] at hid
    rw [hsame.laneStore]
    change id ∈ made.lanes other tier at hid
    rw [hlanesMade] at hid
    dsimp only at hid
    have hne : id ≠ laneId := by
      intro heq
      subst heq
      have hclass : other = (waiters bound).admissionClass := by
        split at hid
        next hplace => exact hplace.1
        · exact absurd (hlanes.ids other tier id hid).2.2 (by omega)
      exact hexempt hclass (hallTiers tier) hbelongs.2.2.symm
    have hold : id ∈ queue.lanes other tier := by
      split at hid
      next hplace =>
        rw [hplace.1, hplace.2]
        cases mem_append.mp hid with
        | inl hold => exact hold
        | inr hnew => exact absurd (mem_singleton.mp hnew) hne
      · exact hid
    have hstore : ((made.setLane laneId (pushWaiter (made.laneStore laneId) bound)).addCounts
        (waiters bound).budgetKeys).laneStore id = queue.laneStore id :=
      (setLane_of_ne hne).trans (hothers id hne)
    rw [hstore]
    exact heligible other tier id hold

end

end Enqueue

end WaiterQueue

end Wakii.GitAdmission
