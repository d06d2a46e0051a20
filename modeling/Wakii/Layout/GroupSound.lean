import Wakii.Layout.GroupCommands

/-!
# Groups that order the tabs

Sound groups list each tab once, have ids of their own and are the leaves of
their tree.  A group may stand empty while a tab is on its way to it; such a
group is a spare.  Every change of groups that a command makes is one of the
changes here.
-/

namespace Wakii.GroupSound

open List KeyedLists SplitTrees
open Wakii.CommandSteps Wakii.LayoutModel Wakii.LayoutTrees

variable {P : Type}

def groupIdsOf (groups : List LayoutGroup) : List String := groups.map (·.id)

def listedBy (groups : List LayoutGroup) : List String := groups.flatMap (·.tabOrder)

/-- The tree names exactly the groups; a single group needs no tree. -/
def TreeNames (layout : Option (TabGroupLayoutNode P)) (groupIds : List String) : Prop :=
  match layout with
  | some tree => tree.leaves.Perm groupIds
  | none => groupIds.length ≤ 1

structure GroupsSound (spare : String → Prop) (tabIds : List String)
    (groups : List LayoutGroup) (layout : Option (TabGroupLayoutNode P)) : Prop where
  nodup : tabIds.Nodup
  listed : (listedBy groups).Perm tabIds
  filled : ∀ group ∈ groups, group.tabOrder = [] → spare group.id
  groupIds : (groupIdsOf groups).Nodup
  tree : TreeNames layout (groupIdsOf groups)

/-! ## Trees -/

variable {layout : Option (TabGroupLayoutNode P)} {groupIds : List String}

theorem treeNames_of_leavesOf (hleaves : (SplitTree.leavesOf layout).Perm groupIds) :
    TreeNames layout groupIds := by
  cases layout with
  | none =>
    have hnil : groupIds = [] := nil_perm.mp hleaves
    simp [TreeNames, hnil]
  | some tree => exact hleaves

theorem TreeNames.filter {layout next : Option (TabGroupLayoutNode P)}
    (htree : TreeNames layout groupIds) (keep : String → Bool)
    (hleaves : SplitTree.leavesOf next = (SplitTree.leavesOf layout).filter keep)
    (hnone : layout = none → next = none) : TreeNames next (groupIds.filter keep) := by
  cases layout with
  | none =>
    rw [hnone rfl]
    have hlength : groupIds.length ≤ 1 := htree
    exact le_trans (length_filter_le _ _) hlength
  | some tree =>
    apply treeNames_of_leavesOf
    rw [hleaves]
    exact List.Perm.filter keep htree

theorem TreeNames.getD_leaf (htree : TreeNames layout groupIds) {groupId : String}
    (hgroup : groupId ∈ groupIds) :
    (layout.getD (.leaf groupId)).leaves.Perm groupIds := by
  cases layout with
  | some tree => exact htree
  | none =>
    obtain ⟨only, honly⟩ : ∃ only, groupIds = [only] := by
      apply length_eq_one_iff.mp
      have hlength : groupIds.length ≤ 1 := htree
      have hpos := length_pos_of_mem hgroup
      omega
    rw [honly, mem_singleton] at hgroup
    rw [honly, hgroup]
    exact List.Perm.refl _

namespace GroupsSound

variable {spare spare' : String → Prop} {tabIds : List String} {groups : List LayoutGroup}
  {layout : Option (TabGroupLayoutNode P)}

section

variable (hsound : GroupsSound spare tabIds groups layout)
include hsound

theorem mono (hspare : ∀ groupId, spare groupId → spare' groupId) :
    GroupsSound spare' tabIds groups layout :=
  ⟨hsound.nodup, hsound.listed,
    fun group hgroup hempty => hspare group.id (hsound.filled group hgroup hempty),
    hsound.groupIds, hsound.tree⟩

theorem congr {tabIds' : List String}
    (hperm : tabIds.Perm tabIds') : GroupsSound spare tabIds' groups layout :=
  { hsound with
    nodup := hperm.nodup_iff.mp hsound.nodup
    listed := hsound.listed.trans hperm }

theorem listed_nodup : (listedBy groups).Nodup := hsound.listed.nodup_iff.mpr hsound.nodup

theorem mem_of_listed {group : LayoutGroup}
    (hgroup : group ∈ groups) {tabId : String} (htab : tabId ∈ group.tabOrder) :
    tabId ∈ tabIds :=
  hsound.listed.mem_iff.mp (mem_flatMap.mpr ⟨group, hgroup, htab⟩)

theorem order_nodup {group : LayoutGroup} (hgroup : group ∈ groups) : group.tabOrder.Nodup :=
  (nodup_flatMap.mp hsound.listed_nodup).1 group hgroup

theorem eq_of_id_eq {left right : LayoutGroup} (hleft : left ∈ groups) (hright : right ∈ groups)
    (hid : left.id = right.id) : left = right :=
  inj_on_of_nodup_map hsound.groupIds hleft hright hid

theorem eq_of_listed {left right : LayoutGroup} (hleft : left ∈ groups) (hright : right ∈ groups)
    {tabId : String} (htabLeft : tabId ∈ left.tabOrder) (htabRight : tabId ∈ right.tabOrder) :
    left = right := by
  by_contra hdiffer
  have hid : right.id ≠ left.id := fun hid =>
    hdiffer (hsound.eq_of_id_eq hright hleft hid).symm
  have hlisted := hsound.listed_nodup
  rw [listedBy, (flatMap_perm LayoutGroup.id hsound.groupIds hleft LayoutGroup.tabOrder).nodup_iff,
    nodup_append] at hlisted
  have hrest : tabId ∈ (removeKeyed LayoutGroup.id left.id groups).flatMap LayoutGroup.tabOrder :=
    mem_flatMap.mpr ⟨right, (mem_removeKeyed LayoutGroup.id).mpr ⟨hright, hid⟩, htabRight⟩
  exact hlisted.2.2 tabId htabLeft tabId hrest rfl

end

variable {layout : Option (TabGroupLayoutNode P)}

theorem first {tabIds : List String} (hsound : GroupsSound spare tabIds [] layout)
    (groupId : String) :
    GroupsSound (· = groupId) tabIds [⟨groupId, []⟩] layout := by
  have htabs : tabIds = [] := nil_perm.mp hsound.listed
  have hlayout : layout = none := by
    have htree := hsound.tree
    cases layout with
    | none => rfl
    | some tree => exact absurd (perm_nil.mp htree) tree.leaves_ne_nil
  rw [htabs, hlayout]
  exact {
    nodup := nodup_nil
    listed := List.Perm.refl _
    filled := fun group hmem _ => by rw [mem_singleton.mp hmem]
    groupIds := nodup_singleton _
    tree := le_refl 1 }

theorem appended (hsound : GroupsSound spare tabIds groups layout) {groupId : String}
    (hnew : groupId ∉ groupIdsOf groups) {tree : TabGroupLayoutNode P}
    (htree : tree.leaves.Perm (groupIdsOf groups ++ [groupId])) :
    GroupsSound (fun other => spare other ∨ other = groupId) tabIds
      (groups ++ [⟨groupId, []⟩]) (some tree) := by
  have hids : groupIdsOf (groups ++ [(⟨groupId, []⟩ : LayoutGroup)]) =
      groupIdsOf groups ++ [groupId] := by
    rw [groupIdsOf, groupIdsOf, map_append]
    rfl
  refine ⟨hsound.nodup, ?_, fun group hgroup hempty => ?_, ?_, ?_⟩
  · rw [listedBy, flatMap_append]
    have hlisted : groups.flatMap (·.tabOrder) ++
        [(⟨groupId, []⟩ : LayoutGroup)].flatMap (·.tabOrder) = listedBy groups :=
      append_nil _
    rw [hlisted]
    exact hsound.listed
  · rcases mem_append.mp hgroup with hold | hlast
    · exact Or.inl (hsound.filled group hold hempty)
    · exact Or.inr (congrArg LayoutGroup.id (mem_singleton.mp hlast))
  · rw [hids]
    exact hsound.groupIds.append (nodup_singleton groupId) (by simpa using hnew)
  · rw [hids]
    exact htree

/-! ## Orders -/

section

variable (hsound : GroupsSound spare tabIds groups layout)
include hsound

theorem mapOrders
    {change : LayoutGroup → LayoutGroup} (hid : ∀ group ∈ groups, (change group).id = group.id)
    (horder : ∀ group ∈ groups, (change group).tabOrder.Perm group.tabOrder) :
    GroupsSound spare tabIds (groups.map change) layout := by
  have hids : groupIdsOf (groups.map change) = groupIdsOf groups := by
    rw [groupIdsOf, groupIdsOf, map_map]
    exact map_congr_left hid
  refine ⟨hsound.nodup, ?_, ?_, by rw [hids]; exact hsound.groupIds,
    by rw [hids]; exact hsound.tree⟩
  · have hlisted : (listedBy (groups.map change)).Perm (listedBy groups) := by
      rw [listedBy, flatMap_map]
      exact List.Perm.flatMap (List.Perm.refl _) horder
    exact hlisted.trans hsound.listed
  · intro group hgroup hempty
    obtain ⟨old, hold, rfl⟩ := mem_map.mp hgroup
    rw [hid old hold]
    have hold_order := horder old hold
    rw [hempty] at hold_order
    exact hsound.filled old hold (nil_perm.mp hold_order)

theorem renamed {rename : String → String} (hnodup : (tabIds.map rename).Nodup) :
    GroupsSound spare (tabIds.map rename)
      (groups.map fun group => { group with tabOrder := group.tabOrder.map rename }) layout := by
  have hids : groupIdsOf (groups.map fun group =>
      { group with tabOrder := group.tabOrder.map rename }) = groupIdsOf groups := by
    rw [groupIdsOf, groupIdsOf, map_map]
    rfl
  refine ⟨hnodup, ?_, fun group hgroup hempty => ?_, by rw [hids]; exact hsound.groupIds,
    by rw [hids]; exact hsound.tree⟩
  · have hlisted : listedBy (groups.map fun group =>
        { group with tabOrder := group.tabOrder.map rename }) = (listedBy groups).map rename := by
      rw [listedBy, listedBy, flatMap_map, map_flatMap]
    rw [hlisted]
    exact hsound.listed.map rename
  · obtain ⟨old, hold, rfl⟩ := mem_map.mp hgroup
    exact hsound.filled old hold (map_eq_nil_iff.mp hempty)

theorem place {group : LayoutGroup}
    (hgroup : group ∈ groups) {tabId : String} (hnew : tabId ∉ tabIds) {order : List String}
    (horder : order.Perm (tabId :: group.tabOrder))
    (hspare : ∀ groupId, spare groupId → groupId ≠ group.id → spare' groupId) :
    GroupsSound spare' (tabIds ++ [tabId])
      (replaceKeyed LayoutGroup.id { group with tabOrder := order } groups) layout := by
  have hids : groupIdsOf (replaceKeyed LayoutGroup.id { group with tabOrder := order } groups) =
      groupIdsOf groups := map_replaceKeyed LayoutGroup.id _ groups
  refine ⟨?_, ?_, ?_, by rw [hids]; exact hsound.groupIds, by rw [hids]; exact hsound.tree⟩
  · exact hsound.nodup.append (nodup_singleton tabId) (by simpa using hnew)
  · have hplaced : (listedBy (replaceKeyed LayoutGroup.id { group with tabOrder := order }
        groups)).Perm (tabId :: listedBy groups) := by
      calc (listedBy (replaceKeyed LayoutGroup.id { group with tabOrder := order } groups)).Perm
            (order ++ (removeKeyed LayoutGroup.id group.id groups).flatMap LayoutGroup.tabOrder) :=
              flatMap_replaceKeyed_perm LayoutGroup.id hsound.groupIds hgroup
                (rfl : ({ group with tabOrder := order } : LayoutGroup).id = group.id)
                LayoutGroup.tabOrder
        List.Perm _ (tabId :: group.tabOrder ++
            (removeKeyed LayoutGroup.id group.id groups).flatMap LayoutGroup.tabOrder) :=
              horder.append_right _
        List.Perm _ (tabId :: listedBy groups) :=
              ((flatMap_perm LayoutGroup.id hsound.groupIds hgroup
                LayoutGroup.tabOrder).symm).cons tabId
    exact hplaced.trans ((hsound.listed.cons tabId).trans (perm_append_singleton tabId tabIds).symm)
  · intro other hother hempty
    obtain ⟨old, hold, hreplaced⟩ := mem_map.mp hother
    by_cases hid : old.id = group.id
    · rw [if_pos hid] at hreplaced
      rw [← hreplaced] at hempty
      rw [show order = [] from hempty] at horder
      exact absurd (nil_perm.mp horder) (cons_ne_nil _ _)
    · rw [if_neg hid] at hreplaced
      subst hreplaced
      exact hspare old.id (hsound.filled old hold hempty) hid

theorem stripped (tabId : String) : GroupsSound (fun _ => True) (tabIds.filter (· ≠ tabId))
      (groups.map fun group => { group with tabOrder := group.tabOrder.filter (· ≠ tabId) })
      layout := by
  have hids : groupIdsOf (groups.map fun group =>
      { group with tabOrder := group.tabOrder.filter (· ≠ tabId) }) = groupIdsOf groups := by
    rw [groupIdsOf, groupIdsOf, map_map]
    rfl
  refine ⟨hsound.nodup.filter _, ?_, fun _ _ _ => trivial, by rw [hids]; exact hsound.groupIds,
    by rw [hids]; exact hsound.tree⟩
  have hlisted : listedBy (groups.map fun group =>
      { group with tabOrder := group.tabOrder.filter (· ≠ tabId) }) =
      (listedBy groups).filter (· ≠ tabId) := by
    rw [listedBy, listedBy, flatMap_map, filter_flatMap]
  rw [hlisted]
  exact hsound.listed.filter _

end

/-! ## Groups that close -/

theorem pruned (hsound : GroupsSound spare tabIds groups layout) :
    GroupsSound (fun _ => False) tabIds (groups.filter (·.tabOrder ≠ []))
      (pruneGroupLeaves ((groups.filter (·.tabOrder ≠ [])).map (·.id)) layout) := by
  have hids : groupIdsOf (groups.filter (·.tabOrder ≠ [])) = (groupIdsOf groups).filter
        (· ∈ (groups.filter (·.tabOrder ≠ [])).map (·.id)) := by
    rw [groupIdsOf, groupIdsOf, filter_map]
    congr 1
    apply filter_congr
    intro group hgroup
    refine decide_eq_decide.mpr ⟨fun hkept => ?_, fun hmem hempty => ?_⟩
    · exact mem_map.mpr ⟨group, mem_filter.mpr ⟨hgroup, by simpa using hkept⟩, rfl⟩
    · obtain ⟨other, hother, hid⟩ := mem_map.mp hmem
      rw [mem_filter] at hother
      have heq := hsound.eq_of_id_eq hother.1 hgroup hid
      rw [heq, hempty] at hother
      simp at hother
  refine ⟨hsound.nodup, ?_, ?_, ?_, ?_⟩
  · have hlisted : listedBy (groups.filter (·.tabOrder ≠ [])) = listedBy groups := by
      clear hids hsound
      induction groups with
      | nil => rfl
      | cons group groups ih =>
        by_cases hempty : group.tabOrder = []
        · simpa [listedBy, hempty] using ih
        · simpa [listedBy, hempty] using ih
    rw [hlisted]
    exact hsound.listed
  · intro group hgroup hempty
    rw [mem_filter] at hgroup
    simp [hempty] at hgroup
  · rw [hids]
    exact hsound.groupIds.filter _
  · rw [hids]
    apply hsound.tree.filter
    · exact leavesOf_pruneGroupLeaves _ layout
    · rintro rfl
      rfl

private theorem leavesOf_foldl_removeLeaf (closing : List LayoutGroup)
    (hnodup : (SplitTree.leavesOf layout).Nodup) :
    SplitTree.leavesOf (closing.foldl
      (fun layout group => layout.bind (·.removeLeaf group.id)) layout) =
      (SplitTree.leavesOf layout).filter (· ∉ closing.map (·.id)) := by
  induction closing generalizing layout with
  | nil => simp
  | cons group closing ih =>
    have hstep : SplitTree.leavesOf (layout.bind (·.removeLeaf group.id)) =
        (SplitTree.leavesOf layout).filter (· ≠ group.id) := by
      cases layout with
      | none => rfl
      | some tree => exact SplitTree.leavesOf_removeLeaf hnodup group.id
    rw [foldl_cons, ih (by rw [hstep]; exact hnodup.filter _), hstep, filter_filter]
    apply filter_congr
    intro other _
    by_cases hother : other = group.id
    · simp [hother]
    · simp [hother]

/-- Closing a tab also drops the groups that held only it. -/
theorem removed (hsound : GroupsSound spare tabIds groups layout) (tabId : String) :
    GroupsSound spare (tabIds.filter (· ≠ tabId))
      (groups.flatMap fun group =>
        if tabId ∉ group.tabOrder then [group]
        else
          let tabOrder := group.tabOrder.filter (· ≠ tabId)
          if tabOrder = [] then [] else [{ group with tabOrder }])
      ((groupsHoldingOnly groups tabId).foldl
        (fun layout group => layout.bind (·.removeLeaf group.id)) layout) := by
  have hids : groupIdsOf (groups.flatMap fun group =>
        if tabId ∉ group.tabOrder then [group]
        else
          let tabOrder := group.tabOrder.filter (· ≠ tabId)
          if tabOrder = [] then [] else [{ group with tabOrder }]) =
      (groupIdsOf groups).filter (· ∉ (groupsHoldingOnly groups tabId).map (·.id)) := by
    have hkeep : ∀ group ∈ groups, (group.id ∈ (groupsHoldingOnly groups tabId).map (·.id) ↔
        tabId ∈ group.tabOrder ∧ group.tabOrder.filter (· ≠ tabId) = []) := by
      intro group hgroup
      rw [mem_map]
      constructor
      · rintro ⟨other, hother, hid⟩
        rw [groupsHoldingOnly, mem_filter] at hother
        have heq := hsound.eq_of_id_eq hother.1 hgroup hid
        rw [heq] at hother
        simpa using hother.2
      · intro honly
        exact ⟨group, mem_filter.mpr ⟨hgroup, by simpa using honly⟩, rfl⟩
    generalize hclosing : (groupsHoldingOnly groups tabId).map (·.id) = closing at hkeep
    clear hclosing hsound
    induction groups with
    | nil => rfl
    | cons group groups ih =>
      have hrest := ih fun other hother => hkeep other (mem_cons_of_mem _ hother)
      have hhead := hkeep group mem_cons_self
      rw [groupIdsOf, groupIdsOf] at hrest ⊢
      rw [flatMap_cons, map_append, hrest, map_cons]
      by_cases hlists : tabId ∈ group.tabOrder
      · rw [if_neg (by simpa using hlists)]
        by_cases hempty : group.tabOrder.filter (· ≠ tabId) = []
        · have hgone := hhead.mpr ⟨hlists, hempty⟩
          simp only [hempty, if_true, map_nil, nil_append]
          rw [filter_cons_of_neg (by simpa using hgone)]
        · have hkept : group.id ∉ closing := fun hmem => hempty (hhead.mp hmem).2
          simp only [hempty, if_false]
          rw [filter_cons_of_pos (by simpa using hkept)]
          rfl
      · have hkept : group.id ∉ closing := fun hmem => hlists (hhead.mp hmem).1
        rw [if_pos hlists, filter_cons_of_pos (by simpa using hkept)]
        rfl
  refine ⟨hsound.nodup.filter _, ?_, ?_, ?_, ?_⟩
  · have hlisted : listedBy (groups.flatMap fun group =>
        if tabId ∉ group.tabOrder then [group]
        else
          let tabOrder := group.tabOrder.filter (· ≠ tabId)
          if tabOrder = [] then [] else [{ group with tabOrder }]) =
        (listedBy groups).filter (· ≠ tabId) := by
      rw [listedBy, listedBy, flatMap_assoc, filter_flatMap]
      apply flatMap_congr
      intro group _
      by_cases hlists : tabId ∈ group.tabOrder
      · rw [if_neg (by simpa using hlists)]
        by_cases hempty : group.tabOrder.filter (· ≠ tabId) = []
        · simp only [hempty, if_true, flatMap_nil]
        · simp only [hempty, if_false, flatMap_singleton]
      · rw [if_pos hlists, flatMap_singleton]
        exact (SplitTree.filter_ne_of_not_mem hlists).symm
    rw [hlisted]
    exact hsound.listed.filter _
  · intro group hgroup hempty
    obtain ⟨old, hold, hmem⟩ := mem_flatMap.mp hgroup
    by_cases hlists : tabId ∈ old.tabOrder
    · rw [if_neg (by simpa using hlists)] at hmem
      by_cases hgone : old.tabOrder.filter (· ≠ tabId) = []
      · simp only [hgone, if_true, not_mem_nil] at hmem
      · simp only [hgone, if_false, mem_singleton] at hmem
        rw [hmem] at hempty
        exact absurd hempty hgone
    · rw [if_pos hlists, mem_singleton] at hmem
      subst hmem
      exact hsound.filled group hold hempty
  · rw [hids]
    exact hsound.groupIds.filter _
  · rw [hids]
    apply hsound.tree.filter
    · apply leavesOf_foldl_removeLeaf
      cases layout with
      | none => exact nodup_nil
      | some tree => exact (Perm.nodup_iff hsound.tree).mpr hsound.groupIds
    · rintro rfl
      generalize groupsHoldingOnly groups tabId = closing
      clear hids hsound
      induction closing with
      | nil => rfl
      | cons group closing ih => exact ih

end GroupsSound

end Wakii.GroupSound
