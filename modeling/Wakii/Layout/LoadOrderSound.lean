import Wakii.Layout.LoadOrder

/-!
# Where the loaded tabs stand

Each tab that is loaded stands in one group, once, and every group that is kept
holds a tab.  A tab's group is told from what is stored alone.
-/

namespace Wakii.LayoutLoad

open List OrderedCollections Wakii.LayoutModel

variable {candidates : List OrderCandidate} {storedGroups done : List TabGroup}
  {groups : List LayoutGroup} {owners : OrderedMap String String} {rootGroupId : String}

/-! ## Owners -/

/-- The owners are stored groups of tabs that are loaded. -/
def OwnersKnown (candidates : List OrderCandidate) (storedGroups : List TabGroup)
    (owners : OrderedMap String String) : Prop :=
  ∀ tabId groupId, owners.lookup tabId = some groupId →
    tabId ∈ candidates.map (·.id) ∧ groupId ∈ storedGroups.map (·.id)

theorem OwnersKnown.set {tabId groupId : String}
    (howners : OwnersKnown candidates storedGroups owners) (htab : tabId ∈ candidates.map (·.id))
    (hgroup : groupId ∈ storedGroups.map (·.id)) :
    OwnersKnown candidates storedGroups (owners.set tabId groupId) := by
  intro other owner howner
  rw [OrderedMap.lookup_set] at howner
  split at howner
  · next hother =>
      cases howner
      exact ⟨hother ▸ htab, hgroup⟩
  · exact howners other owner howner

theorem ownersKnown_namedOwners (candidates : List OrderCandidate) (storedGroups : List TabGroup) :
    OwnersKnown candidates storedGroups (namedOwners candidates storedGroups) := by
  refine List.foldlRecOn candidates _ ?_ fun owners howners tab htab => ?_
  · intro tabId groupId howner
    cases howner
  · split
    · exact howners
    · split_ifs with hstored
      · exact howners.set (mem_map_of_mem htab) hstored
      · exact howners

theorem ownersKnown_resolveTabGroupOwners (candidates : List OrderCandidate)
    (storedGroups : List TabGroup) :
    OwnersKnown candidates storedGroups (resolveTabGroupOwners candidates storedGroups) := by
  refine List.foldlRecOn storedGroups _ (ownersKnown_namedOwners candidates storedGroups)
    fun owners howners group hgroup => ?_
  refine List.foldlRecOn group.tabOrder _ howners fun owners howners tabId _ => ?_
  rw [listedOwner]
  split_ifs with hknown
  · exact howners.set hknown.1 (mem_map_of_mem hgroup)
  · exact howners

/-! ## Tabs that a group places -/

theorem foldl_placeListed (owners : OrderedMap String String) (groupId : String)
    (tabOrder : List String) (lists : List String × List String) :
    ∃ added, tabOrder.foldl (placeListed owners groupId) lists =
        (lists.1 ++ added, lists.2 ++ added) ∧ added.Nodup ∧ ∀ tabId, tabId ∈ added ↔
        owners.lookup tabId = some groupId ∧ tabId ∉ lists.1 ∧ tabId ∈ tabOrder := by
  induction tabOrder generalizing lists with
  | nil => exact ⟨[], by simp, nodup_nil, by simp⟩
  | cons head rest ih =>
    rw [foldl_cons, placeListed]
    split_ifs with hhead
    · obtain ⟨added, hlists, hnodup, hadded⟩ := ih (lists.1 ++ [head], lists.2 ++ [head])
      have hfresh : head ∉ added := fun hmem =>
        ((hadded head).mp hmem).2.1 (mem_append_right _ (mem_singleton_self head))
      refine ⟨head :: added, ?_, nodup_cons.mpr ⟨hfresh, hnodup⟩, fun tabId => ?_⟩
      · rw [hlists, append_assoc, append_assoc]
        rfl
      · rw [mem_cons, hadded, mem_append, mem_singleton, mem_cons]
        constructor
        · rintro (rfl | ⟨howner, hplaced, hrest⟩)
          · exact ⟨hhead.1, hhead.2, Or.inl rfl⟩
          · exact ⟨howner, fun hmem => hplaced (Or.inl hmem), Or.inr hrest⟩
        · rintro ⟨howner, hplaced, htab⟩
          by_cases heq : tabId = head
          · exact Or.inl heq
          · exact Or.inr ⟨howner, fun hmem => hmem.elim hplaced heq, htab.resolve_left heq⟩
    · obtain ⟨added, hlists, hnodup, hadded⟩ := ih lists
      refine ⟨added, hlists, hnodup, fun tabId => ?_⟩
      rw [hadded, mem_cons]
      constructor
      · exact fun ⟨howner, hplaced, hrest⟩ => ⟨howner, hplaced, Or.inr hrest⟩
      · rintro ⟨howner, hplaced, rfl | hrest⟩
        · exact absurd ⟨howner, hplaced⟩ hhead
        · exact ⟨howner, hplaced, hrest⟩

def ListedIn (storedGroups : List TabGroup) (groupId tabId : String) : Prop :=
  ∃ record, storedGroups.find? (·.id = groupId) = some record ∧ tabId ∈ record.tabOrder

instance (storedGroups : List TabGroup) (groupId tabId : String) :
    Decidable (ListedIn storedGroups groupId tabId) :=
  decidable_of_iff ((storedGroups.find? (·.id = groupId)).any (tabId ∈ ·.tabOrder)) (by
    rw [ListedIn, Option.any_eq_true]
    exact exists_congr fun record => and_congr Iff.rfl decide_eq_true_iff)

/-- What stands after the stored groups up to some point. -/
structure Placed (owners : OrderedMap String String) (done : List TabGroup)
    (state : PlacedGroups) : Prop where
  nodup : (state.groups.map (·.id)).Nodup
  ids : ∀ groupId, groupId ∈ state.groups.map (·.id) ↔ groupId ∈ done.map (·.id)
  first : state.groups.head?.map (·.id) = done.head?.map (·.id)
  placed : state.groups.flatMap (·.tabOrder) = state.placed
  once : state.placed.Nodup
  lists : ∀ group ∈ state.groups, ∀ tabId, tabId ∈ group.tabOrder ↔
    owners.lookup tabId = some group.id ∧ ListedIn done group.id tabId

variable {groupId tabId : String} (candidate : OrderCandidate)

theorem listedIn_append {stored : TabGroup} (hdone : groupId ∈ done.map (·.id)) :
    ListedIn (done ++ [stored]) groupId tabId ↔ ListedIn done groupId tabId := by
  obtain ⟨record, hrecord, -⟩ := KeyedLists.find?_of_mem TabGroup.id hdone
  rw [ListedIn, ListedIn, find?_append, hrecord, Option.some_or]

theorem listedIn_append_self {stored : TabGroup} {tabId : String}
    (hdone : stored.id ∉ done.map (·.id)) :
    ListedIn (done ++ [stored]) stored.id tabId ↔ tabId ∈ stored.tabOrder := by
  have hnone := KeyedLists.find?_of_not_mem TabGroup.id hdone
  rw [ListedIn, find?_append, hnone, Option.none_or]
  simp

/-- A group takes the tabs it lists and owns. -/
theorem Placed.placeGroup {state : PlacedGroups} (hstate : Placed owners done state)
    (stored : TabGroup) : Placed owners (done ++ [stored]) (placeGroup owners state stored) := by
  have hhead (hdone : done ≠ []) : (done ++ [stored]).head? = done.head? := by
    rw [head?_append_of_ne_nil _ hdone]
  rw [LayoutLoad.placeGroup]
  split_ifs with hheld
  · have hdone := (hstate.ids _).mp hheld
    refine { hstate with
      ids := fun groupId => ?_
      first := ?_
      lists := fun group hgroup tabId => ?_ }
    · rw [hstate.ids, map_append, mem_append, map_singleton, mem_singleton]
      exact ⟨Or.inl, fun hmem => hmem.elim id fun heq => heq ▸ hdone⟩
    · rw [hhead (fun hempty => by simp [hempty] at hdone), hstate.first]
    · rw [hstate.lists group hgroup tabId,
        listedIn_append ((hstate.ids _).mp (mem_map_of_mem hgroup))]
  · have hdone := fun hmem => hheld ((hstate.ids stored.id).mpr hmem)
    obtain ⟨added, hlists, hnodup, hadded⟩ :=
      foldl_placeListed owners stored.id stored.tabOrder (state.placed, [])
    -- a tab placed before has another owner
    have howned : ∀ tabId ∈ state.placed, owners.lookup tabId ≠ some stored.id := by
      intro tabId htab howner
      rw [← hstate.placed, mem_flatMap] at htab
      obtain ⟨group, hgroup, hmem⟩ := htab
      rw [((hstate.lists group hgroup tabId).mp hmem).1] at howner
      exact hheld (mem_map.mpr ⟨group, hgroup, Option.some.inj howner⟩)
    rw [hlists]
    refine
      { nodup := ?_
        ids := fun groupId => ?_
        first := ?_
        placed := ?_
        once := ?_
        lists := fun group hgroup tabId => ?_ }
    · rw [map_append]
      exact nodup_append.mpr ⟨hstate.nodup, nodup_singleton _,
        fun groupId hmem other hother heq => hheld (by
          have hself : other = stored.id := mem_singleton.mp hother
          rw [← hself, ← heq]
          exact hmem)⟩
    · rw [map_append, mem_append, hstate.ids, map_append, mem_append]
      rfl
    · cases hgroups : state.groups with
      | nil =>
        have hnil : done = [] := by
          have hfirst := hstate.first
          rw [hgroups] at hfirst
          simpa using hfirst.symm
        rw [hnil]
        rfl
      | cons group rest =>
        have hfirst := hstate.first
        rw [hgroups] at hfirst
        have hne : done ≠ [] := fun hempty => by simp [hempty] at hfirst
        rw [hhead hne, ← hfirst]
        rfl
    · rw [flatMap_append, hstate.placed]
      simp
    · refine nodup_append.mpr ⟨hstate.once, hnodup, ?_⟩
      rintro tabId hplaced _ hmem rfl
      exact ((hadded tabId).mp hmem).2.1 hplaced
    · rcases mem_append.mp hgroup with hold | hnew
      · rw [hstate.lists group hold tabId,
          listedIn_append ((hstate.ids _).mp (mem_map_of_mem hold))]
      · rw [mem_singleton.mp hnew, nil_append, hadded, listedIn_append_self hdone]
        constructor
        · exact fun ⟨howner, _, htab⟩ => ⟨howner, htab⟩
        · exact fun ⟨howner, htab⟩ => ⟨howner, fun hmem => howned tabId hmem howner, htab⟩

theorem placed_placeGroups (owners : OrderedMap String String) (storedGroups : List TabGroup) :
    Placed owners storedGroups (placeGroups owners storedGroups) := by
  induction storedGroups using List.reverseRecOn with
  | nil =>
    exact
      { nodup := nodup_nil
        ids := fun _ => Iff.rfl
        first := rfl
        placed := rfl
        once := nodup_nil
        lists := fun group hgroup => absurd hgroup not_mem_nil }
  | append_singleton done stored ih =>
    rw [placeGroups, foldl_append]
    exact ih.placeGroup stored

/-! ## Tabs that no group places -/

def Lists (groups : List LayoutGroup) (groupId tabId : String) : Prop :=
  ∃ group ∈ groups, group.id = groupId ∧ tabId ∈ group.tabOrder

def fallbackGroup (groupIds : List String) (rootGroupId : String) (candidate : OrderCandidate) :
    String :=
  ((candidate.groupId.filter (· ∈ groupIds)).or groupIds.head?).getD rootGroupId

theorem map_pushTo (groupId tabId : String) (groups : List LayoutGroup) :
    (pushTo groupId tabId groups).map (·.id) = groups.map (·.id) := by
  rw [pushTo, map_map]
  apply map_congr_left
  intro group _
  rw [Function.comp_apply]
  split <;> rfl

theorem lists_pushTo (hgroup : groupId ∈ groups.map (·.id))
    (other otherTab : String) : Lists (pushTo groupId tabId groups) other otherTab ↔
      Lists groups other otherTab ∨ other = groupId ∧ otherTab = tabId := by
  constructor
  · rintro ⟨pushed, hpushed, rfl, htab⟩
    obtain ⟨group, hmem, rfl⟩ := mem_map.mp hpushed
    split_ifs at htab with hid
    · rcases mem_append.mp htab with hold | hnew
      · exact Or.inl ⟨group, hmem, by rw [if_pos hid], hold⟩
      · exact Or.inr ⟨by rw [if_pos hid, hid], mem_singleton.mp hnew⟩
    · exact Or.inl ⟨group, hmem, by rw [if_neg hid], htab⟩
  · rintro (⟨group, hmem, rfl, htab⟩ | ⟨rfl, rfl⟩)
    · refine ⟨_, mem_map_of_mem hmem, ?_, ?_⟩
      · split <;> rfl
      · split
        · exact mem_append_left _ htab
        · exact htab
    · obtain ⟨group, hmem, rfl⟩ := mem_map.mp hgroup
      refine ⟨_, mem_map_of_mem hmem, ?_, ?_⟩
      · rw [if_pos rfl]
      · rw [if_pos rfl]
        exact mem_append_right _ (mem_singleton_self _)

theorem listed_pushTo (hnodup : (groups.map (·.id)).Nodup) (hgroup : groupId ∈ groups.map (·.id)) :
    ((pushTo groupId tabId groups).flatMap (·.tabOrder)).Perm
      (groups.flatMap (·.tabOrder) ++ [tabId]) := by
  induction groups with
  | nil => cases hgroup
  | cons group rest ih =>
    rw [map_cons, nodup_cons] at hnodup
    rw [pushTo, map_cons, flatMap_cons, flatMap_cons]
    by_cases hid : group.id = groupId
    · have hrest : rest.map (fun group => if group.id = groupId then
          { group with tabOrder := group.tabOrder ++ [tabId] } else group) = rest.map id := by
        apply map_congr_left
        intro other hother
        exact if_neg fun heq => hnodup.1 (mem_map.mpr ⟨other, hother, heq.trans hid.symm⟩)
      rw [if_pos hid, hrest, map_id, append_assoc, append_assoc]
      exact perm_append_comm.append_left group.tabOrder
    · rw [if_neg hid, append_assoc]
      exact (ih hnodup.2 ((mem_cons.mp hgroup).resolve_left (Ne.symm hid))).append_left _

theorem placeUnplaced_eq (hgroups : groups ≠ []) :
    fallbackGroup (groups.map (·.id)) rootGroupId candidate ∈ groups.map (·.id) ∧
      placeUnplaced rootGroupId groups candidate =
        pushTo (fallbackGroup (groups.map (·.id)) rootGroupId candidate) candidate.id groups := by
  obtain ⟨first, rest, rfl⟩ := exists_cons_of_ne_nil hgroups
  rw [placeUnplaced, fallbackGroup]
  cases hnamed : candidate.groupId with
  | none => exact ⟨by simp, by simp⟩
  | some groupId =>
    by_cases hheld : groupId ∈ (first :: rest).map (·.id)
    · obtain ⟨group, hgroup, hid⟩ := KeyedLists.find?_of_mem LayoutGroup.id hheld
      have hfilter : (some groupId).filter (· ∈ (first :: rest).map (·.id)) = some groupId :=
        Option.filter_eq_some_iff.mpr ⟨rfl, decide_eq_true hheld⟩
      rw [hfilter, Option.bind_some, hgroup, Option.some_or, Option.some_or, Option.getD_some]
      exact ⟨hheld, congrArg (pushTo · candidate.id (first :: rest)) hid⟩
    · have hfilter : (some groupId).filter (· ∈ (first :: rest).map (·.id)) = none :=
        Option.filter_eq_none_iff.mpr fun other hother => by
          cases hother
          simpa using hheld
      rw [hfilter, Option.bind_some, KeyedLists.find?_of_not_mem LayoutGroup.id hheld]
      exact ⟨by simp, by simp⟩

/-- What the candidates that no group placed add to the groups. -/
structure Filled (rootGroupId : String) (groups : List LayoutGroup)
    (candidates : List OrderCandidate) (filled : List LayoutGroup) : Prop where
  nodup : (filled.map (·.id)).Nodup
  listed : (filled.flatMap (·.tabOrder)).Perm
    (groups.flatMap (·.tabOrder) ++ candidates.map (·.id))
  lists : ∀ groupId tabId, Lists filled groupId tabId ↔ Lists groups groupId tabId ∨
    ∃ candidate ∈ candidates,
      fallbackGroup (groups.map (·.id)) rootGroupId candidate = groupId ∧ candidate.id = tabId

theorem fallbackGroup_root : fallbackGroup [rootGroupId] rootGroupId candidate = rootGroupId := by
  rw [fallbackGroup]
  cases candidate.groupId with
  | none => rfl
  | some groupId =>
    by_cases hroot : groupId = rootGroupId
    · simp [Option.filter, hroot]
    · simp [Option.filter, hroot]

theorem fallbackGroup_nil : fallbackGroup [] rootGroupId candidate = rootGroupId := by
  rw [fallbackGroup]
  cases candidate.groupId <;> simp [Option.filter]

theorem filled_foldl {groups : List LayoutGroup} (hnodup : (groups.map (·.id)).Nodup)
    (candidates : List OrderCandidate) :
    Filled rootGroupId groups candidates
      (candidates.foldl (placeUnplaced rootGroupId) groups) := by
  induction candidates generalizing groups with
  | nil => exact ⟨hnodup, by simp, by simp⟩
  | cons candidate rest ih =>
    rw [foldl_cons]
    by_cases hgroups : groups = []
    · subst hgroups
      have hmade : placeUnplaced rootGroupId [] candidate = [⟨rootGroupId, [candidate.id]⟩] := by
        rw [placeUnplaced]
        cases candidate.groupId <;> rfl
      rw [hmade]
      have hfilled : Filled rootGroupId [⟨rootGroupId, [candidate.id]⟩] rest _ :=
        ih (nodup_singleton _)
      refine ⟨hfilled.nodup, hfilled.listed, fun groupId tabId => ?_⟩
      rw [hfilled.lists]
      simp only [map_cons, map_nil, fallbackGroup_root, fallbackGroup_nil]
      simp [Lists, eq_comm]
    · obtain ⟨htarget, hplaced⟩ := @placeUnplaced_eq _ rootGroupId candidate hgroups
      have hids := map_pushTo
        (fallbackGroup (groups.map (·.id)) rootGroupId candidate) candidate.id groups
      rw [hplaced]
      have hfilled : Filled rootGroupId (pushTo _ candidate.id groups) rest _ :=
        ih (by rw [hids]; exact hnodup)
      refine ⟨hfilled.nodup, ?_, fun groupId tabId => ?_⟩
      · refine hfilled.listed.trans ?_
        rw [map_cons]
        exact ((listed_pushTo hnodup htarget).append_right _).trans (by simp)
      · rw [hfilled.lists, lists_pushTo htarget, hids, or_assoc]
        simp [eq_comm]

/-! ## The group of a tab -/

/-- The group that places a tab: its owner, where the owner's first record lists it. -/
def placedIn (storedGroups : List TabGroup) (candidates : List OrderCandidate) (tabId : String) :
    Option String :=
  ((resolveTabGroupOwners candidates storedGroups).lookup tabId).filter
    fun groupId => ListedIn storedGroups groupId tabId

def homeGroup (storedGroups : List TabGroup) (candidates : List OrderCandidate)
    (rootGroupId : String) (candidate : OrderCandidate) : String :=
  (placedIn storedGroups candidates candidate.id).getD
    (fallbackGroup (storedGroups.map (·.id)) rootGroupId candidate)

section Resolved

variable (storedGroups : List TabGroup) (candidates : List OrderCandidate)
  (rootGroupId : String)

def filledGroups : List LayoutGroup :=
  let state := placeGroups (resolveTabGroupOwners candidates storedGroups) storedGroups
  (sortUnplaced (candidates.filter fun candidate => candidate.id ∉ state.placed)).foldl
    (placeUnplaced rootGroupId) state.groups

theorem resolveGroupOrder_eq : resolveGroupOrder storedGroups candidates rootGroupId =
    (filledGroups storedGroups candidates rootGroupId).filter (·.tabOrder ≠ []) := rfl

theorem lists_placeGroups (groupId tabId : String) :
    Lists (placeGroups (resolveTabGroupOwners candidates storedGroups) storedGroups).groups
      groupId tabId ↔ placedIn storedGroups candidates tabId = some groupId := by
  have hplaced := placed_placeGroups (resolveTabGroupOwners candidates storedGroups) storedGroups
  rw [placedIn, Option.filter_eq_some_iff, decide_eq_true_iff]
  constructor
  · rintro ⟨group, hgroup, rfl, htab⟩
    exact (hplaced.lists group hgroup tabId).mp htab
  · rintro ⟨howner, hlisted⟩
    have hstored := (ownersKnown_resolveTabGroupOwners _ _ tabId groupId howner).2
    obtain ⟨group, hgroup, hid⟩ := mem_map.mp ((hplaced.ids groupId).mpr hstored)
    refine ⟨group, hgroup, hid, (hplaced.lists group hgroup tabId).mpr ?_⟩
    rw [hid]
    exact ⟨howner, hlisted⟩

theorem mem_placed (tabId : String) :
    tabId ∈ (placeGroups (resolveTabGroupOwners candidates storedGroups) storedGroups).placed ↔
      ∃ groupId, placedIn storedGroups candidates tabId = some groupId := by
  have hplaced := placed_placeGroups (resolveTabGroupOwners candidates storedGroups) storedGroups
  rw [← hplaced.placed, mem_flatMap]
  constructor
  · rintro ⟨group, hgroup, htab⟩
    exact ⟨group.id, (lists_placeGroups _ _ _ _).mp ⟨group, hgroup, rfl, htab⟩⟩
  · rintro ⟨groupId, hgroupId⟩
    obtain ⟨group, hgroup, -, htab⟩ := (lists_placeGroups _ _ _ _).mpr hgroupId
    exact ⟨group, hgroup, htab⟩

theorem placedIn_known {tabId groupId : String}
    (hplaced : placedIn storedGroups candidates tabId = some groupId) :
    tabId ∈ candidates.map (·.id) :=
  (ownersKnown_resolveTabGroupOwners _ _ tabId groupId (Option.filter_eq_some_iff.mp hplaced).1).1

theorem filled_filledGroups : Filled rootGroupId
      (placeGroups (resolveTabGroupOwners candidates storedGroups) storedGroups).groups
      (sortUnplaced (candidates.filter fun candidate => candidate.id ∉
        (placeGroups (resolveTabGroupOwners candidates storedGroups) storedGroups).placed))
      (filledGroups storedGroups candidates rootGroupId) :=
  filled_foldl (placed_placeGroups _ storedGroups).nodup _

theorem fallbackGroup_placeGroups (candidate : OrderCandidate) : fallbackGroup
      ((placeGroups (resolveTabGroupOwners candidates storedGroups) storedGroups).groups.map (·.id))
      rootGroupId candidate =
    fallbackGroup (storedGroups.map (·.id)) rootGroupId candidate := by
  have hplaced := placed_placeGroups (resolveTabGroupOwners candidates storedGroups) storedGroups
  have hhead := hplaced.first
  rw [← head?_map, ← head?_map] at hhead
  rw [fallbackGroup, fallbackGroup, hhead]
  congr 3
  funext groupId
  exact decide_eq_decide.mpr (hplaced.ids groupId)

theorem lists_filledGroups (groupId tabId : String) :
    Lists (filledGroups storedGroups candidates rootGroupId) groupId tabId ↔
      ∃ candidate ∈ candidates, candidate.id = tabId ∧
        homeGroup storedGroups candidates rootGroupId candidate = groupId := by
  rw [(filled_filledGroups storedGroups candidates rootGroupId).lists, lists_placeGroups]
  constructor
  · rintro (hplaced | ⟨candidate, hmem, hgroup, rfl⟩)
    · obtain ⟨candidate, hmem, rfl⟩ := mem_map.mp (placedIn_known storedGroups candidates hplaced)
      exact ⟨candidate, hmem, rfl, by rw [homeGroup, hplaced, Option.getD_some]⟩
    · rw [sortUnplaced, mem_insertionSort, mem_filter] at hmem
      refine ⟨candidate, hmem.1, rfl, ?_⟩
      have hnone : placedIn storedGroups candidates candidate.id = none := by
        rw [Option.eq_none_iff_forall_ne_some]
        intro other hother
        exact of_decide_eq_true hmem.2 ((mem_placed _ _ _).mpr ⟨other, hother⟩)
      rw [homeGroup, hnone, Option.getD_none, ← hgroup, fallbackGroup_placeGroups]
  · rintro ⟨candidate, hmem, rfl, hhome⟩
    cases hplaced : placedIn storedGroups candidates candidate.id with
    | some other =>
      rw [homeGroup, hplaced, Option.getD_some] at hhome
      exact Or.inl (by rw [hhome])
    | none =>
      rw [homeGroup, hplaced, Option.getD_none] at hhome
      refine Or.inr ⟨candidate, ?_, by rw [fallbackGroup_placeGroups, hhome], rfl⟩
      rw [sortUnplaced, mem_insertionSort, mem_filter]
      refine ⟨hmem, decide_eq_true fun hmemPlaced => ?_⟩
      obtain ⟨other, hother⟩ := (mem_placed _ _ _).mp hmemPlaced
      rw [hplaced] at hother
      cases hother

theorem mem_ids_resolveGroupOrder (groupId : String) :
    groupId ∈ (resolveGroupOrder storedGroups candidates rootGroupId).map (·.id) ↔
      ∃ candidate ∈ candidates,
        homeGroup storedGroups candidates rootGroupId candidate = groupId := by
  rw [resolveGroupOrder_eq, mem_map]
  constructor
  · rintro ⟨group, hgroup, rfl⟩
    rw [mem_filter, decide_eq_true_iff] at hgroup
    obtain ⟨tabId, htab⟩ := exists_mem_of_ne_nil _ hgroup.2
    obtain ⟨candidate, hmem, -, hhome⟩ :=
      (lists_filledGroups _ _ _ _ _).mp ⟨group, hgroup.1, rfl, htab⟩
    exact ⟨candidate, hmem, hhome⟩
  · rintro ⟨candidate, hmem, hhome⟩
    obtain ⟨group, hgroup, hid, htab⟩ :=
      (lists_filledGroups _ _ _ groupId _).mpr ⟨candidate, hmem, rfl, hhome⟩
    refine ⟨group, mem_filter.mpr ⟨hgroup, decide_eq_true ?_⟩, hid⟩
    exact ne_nil_of_mem htab

theorem nodup_ids_resolveGroupOrder :
    ((resolveGroupOrder storedGroups candidates rootGroupId).map (·.id)).Nodup := by
  have hnodup := (filled_filledGroups storedGroups candidates rootGroupId).nodup
  exact List.Nodup.sublist (List.Sublist.map _ filter_sublist) hnodup

end Resolved

end Wakii.LayoutLoad
