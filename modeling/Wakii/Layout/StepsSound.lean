import Wakii.Layout.LayoutSound
import Wakii.Layout.TabCommands

/-!
# The shared steps keep a workspace sound

For each step: the workspace it leaves is sound, and its tabs, panes and
bindings are those it found or the ones it was given.
-/

namespace Wakii.StepsSound

open Option List KeyedLists OrderedCollections SplitTrees SplitTree
open Wakii.CommandSteps Wakii.CommandTypes Wakii.GroupSound Wakii.LayoutModel
open Wakii.LayoutSoundness Wakii.TabCommands Wakii.TerminalOwners

variable {P : Type}

/-! ## Orders -/

variable {order : List String}

theorem dedupeTabOrder_of_nodup (hnodup : order.Nodup) : dedupeTabOrder order = order := by
  induction order with
  | nil => rfl
  | cons tabId rest ih =>
    rw [nodup_cons] at hnodup
    rw [dedupeTabOrder, ih hnodup.2, filter_ne_of_not_mem hnodup.1]

theorem spliceIn_perm (order : List String) (index : ℤ) (tabId : String) :
    (spliceIn order index tabId).Perm (tabId :: order) := by
  rw [spliceIn]
  refine perm_middle.trans (List.Perm.cons tabId ?_)
  rw [take_append_drop]

section

variable (hnodup : order.Nodup) {tabId : String}
include hnodup

theorem insertTabIdIntoOrder_perm
    (htab : tabId ∉ order) (tabs : List (LayoutTab P)) (isPinned : Bool)
    (anchor : Option String) :
    (insertTabIdIntoOrder order tabs tabId isPinned anchor).Perm (tabId :: order) := by
  rw [insertTabIdIntoOrder, dedupeTabOrder_of_nodup hnodup, filter_ne_of_not_mem htab]
  exact spliceIn_perm order _ tabId

theorem splice_filter_perm (htab : tabId ∈ order) (index : ℤ) :
    (spliceIn (order.filter (· ≠ tabId)) index tabId).Perm order :=
  (spliceIn_perm _ index tabId).trans (perm_filter_ne hnodup htab).symm

theorem partitionPinnedTabOrder_perm (htab : tabId ∈ order) (tabs : List (LayoutTab P)) :
    (partitionPinnedTabOrder order tabs tabId).Perm order := by
  rw [partitionPinnedTabOrder, dedupeTabOrder_of_nodup hnodup]
  refine perm_middle.trans ?_
  exact ((filter_append_perm _ _).cons tabId).trans (perm_filter_ne hnodup htab).symm

end

/-! ## Workspaces after a step -/

/-- Tabs and panes are old or among those given; no pane is bound anew. -/
structure Evolves (tabs panes : List String) (old new : WorkspaceLayout P) : Prop where
  tabs : ∀ tabId ∈ new.tabIds, tabId ∈ old.tabIds ∨ tabId ∈ tabs
  panes : ∀ paneId ∈ new.paneIds, paneId ∈ old.paneIds ∨ paneId ∈ panes
  bindings : ∀ leafId,
    new.bindingOf leafId = old.bindingOf leafId ∨ (new.bindingOf leafId).ptyId = none

namespace Evolves

variable {tabs panes : List String} {old middle new : WorkspaceLayout P}

theorem trans (hfirst : Evolves tabs panes old middle) (hsecond : Evolves tabs panes middle new) :
    Evolves tabs panes old new := by
  refine ⟨fun tabId htab => ?_, fun paneId hpane => ?_, fun leafId => ?_⟩
  · exact (hsecond.tabs tabId htab).elim (hfirst.tabs tabId) Or.inr
  · exact (hsecond.panes paneId hpane).elim (hfirst.panes paneId) Or.inr
  · rcases hsecond.bindings leafId with hkept | hnone
    · rw [hkept]
      exact hfirst.bindings leafId
    · exact Or.inr hnone

theorem mono (hevolves : Evolves [] [] old new) : Evolves tabs panes old new :=
  ⟨fun tabId htab => Or.inl ((hevolves.tabs tabId htab).resolve_right not_mem_nil),
    fun paneId hpane => Or.inl ((hevolves.panes paneId hpane).resolve_right not_mem_nil),
    hevolves.bindings⟩

theorem widen (hevolves : Evolves tabs panes old new) {tabs' : List String}
    (htabs : tabs ⊆ tabs') : Evolves tabs' panes old new :=
  ⟨fun tabId htab => (hevolves.tabs tabId htab).imp id (@htabs tabId), hevolves.panes,
    hevolves.bindings⟩

theorem replaces (hevolves : Evolves tabs panes old new) {workspaces : Workspaces P}
    (htabs : ∀ tabId ∈ tabs, Unused WorkspaceLayout.tabIds workspaces tabId)
    (hpanes : ∀ paneId ∈ panes, Unused WorkspaceLayout.paneIds workspaces paneId)
    (bound : String) : Replaces workspaces old new bound :=
  ⟨fun tabId htab => (hevolves.tabs tabId htab).imp id (htabs tabId),
    fun paneId hpane => (hevolves.panes paneId hpane).imp id (hpanes paneId),
    fun leafId _ => hevolves.bindings leafId, (hevolves.bindings bound).imp id Or.inl⟩

theorem after {workspaces : Workspaces P} {bound : String}
    (hreplaces : Replaces workspaces old middle bound) (hevolves : Evolves tabs [] middle new)
    (htabs : ∀ tabId ∈ tabs, Unused WorkspaceLayout.tabIds workspaces tabId) :
    Replaces workspaces old new bound := by
  refine ⟨fun tabId htab => ?_, fun paneId hpane => ?_, fun leafId hleaf => ?_, ?_⟩
  · exact (hevolves.tabs tabId htab).elim (hreplaces.tabs tabId) fun hnew =>
      Or.inr (htabs tabId hnew)
  · exact hreplaces.panes paneId ((hevolves.panes paneId hpane).resolve_right not_mem_nil)
  · rcases hevolves.bindings leafId with hkept | hnone
    · rw [hkept]
      exact hreplaces.others leafId hleaf
    · exact Or.inr hnone
  · rcases hevolves.bindings bound with hkept | hnone
    · rw [hkept]
      exact hreplaces.binding
    · exact Or.inr (Or.inl hnone)

end Evolves

/-- What soundness reads of a workspace is the same. -/
structure SameFrame (old new : WorkspaceLayout P) : Prop where
  tabIds : new.tabIds = old.tabIds
  paneIds : new.paneIds = old.paneIds
  groups : new.groups = old.groups
  groupLayout : new.groupLayout = old.groupLayout
  leaves : new.leaves = old.leaves

namespace SameFrame

variable {old new : WorkspaceLayout P}

section

variable (hframe : SameFrame old new)
include hframe

theorem leaf? : new.leaf? = old.leaf? := by
  funext leafId
  rw [WorkspaceLayout.leaf?, WorkspaceLayout.leaf?, hframe.leaves]

theorem bindingOf : new.bindingOf = old.bindingOf := by
  funext leafId
  rw [WorkspaceLayout.bindingOf, WorkspaceLayout.bindingOf, hframe.leaf?]

theorem sound {spare : String → Prop}
    (hsound : WorkspaceSound spare old) : WorkspaceSound spare new := by
  constructor
  · rw [hframe.tabIds, hframe.groups, hframe.groupLayout]
    exact hsound.groups
  · rw [hframe.paneIds, hframe.leaf?]
    exact hsound.panes

theorem evolves : Evolves [] [] old new := ⟨fun _ htab => Or.inl (hframe.tabIds ▸ htab),
    fun _ hpane => Or.inl (hframe.paneIds ▸ hpane),
    fun leafId => Or.inl (congrFun hframe.bindingOf leafId)⟩

end

end SameFrame

theorem Evolves.refl (workspace : WorkspaceLayout P) : Evolves [] [] workspace workspace :=
  SameFrame.evolves ⟨rfl, rfl, rfl, rfl, rfl⟩

/-! ## Finding -/

variable {workspace : WorkspaceLayout P} {tabId : String}

theorem mem_of_findTab {tab : LayoutTab P}
    (htab : findTab workspace tabId = some tab) : tab ∈ workspace.tabs ∧ tab.id = tabId :=
  ⟨mem_of_find?_eq_some htab, by simpa using find?_some htab⟩

variable {tab : LayoutTerminalTab P}

theorem mem_of_findTerminal (htab : findTerminal workspace tabId = some tab) :
    LayoutTab.terminal tab ∈ workspace.tabs ∧ tab.id = tabId := by
  obtain ⟨found, hfound, hterminal⟩ := bind_eq_some_iff.mp htab
  have hmem := mem_of_findTab hfound
  cases found with
  | terminal terminal =>
    cases hterminal
    exact hmem
  | content content => cases hterminal

theorem mem_of_paneTab (htab : paneTab workspace tabId = some tab) :
    LayoutTab.terminal tab ∈ workspace.tabs ∧ tab.panes.root.isSome := by
  rw [paneTab, filter_eq_some_iff] at htab
  exact ⟨(mem_of_findTerminal htab.1).1, htab.2⟩

variable {leafId : String}

theorem mem_paneIds (htab : LayoutTab.terminal tab ∈ workspace.tabs)
    (hleaf : leafId ∈ leafIdsOf tab) : leafId ∈ workspace.paneIds :=
  mem_flatMap.mpr ⟨.terminal tab, htab, hleaf⟩

variable {leafId : String}

theorem mem_leavesOf_of_contains {root : Option (TerminalPaneLayoutNode P)}
    (hcontains : layoutContainsLeafId root leafId = true) :
    leafId ∈ SplitTree.leavesOf root := by
  cases root with
  | none => cases hcontains
  | some tree => exact holds_iff.mp hcontains

variable {pane : LocatedPane P} {passes : LayoutTerminalTab P → String → Bool}

theorem mem_of_findPane {tab : LayoutTab P} (hpane : findPane passes tab = some pane) :
    tab = .terminal pane.tab ∧ pane.leafId ∈ leafIdsOf pane.tab ∧
      passes pane.tab pane.leafId = true := by
  obtain ⟨terminal, hterminal, hrest⟩ := bind_eq_some_iff.mp hpane
  obtain ⟨leafId, hleaf, hlocated⟩ := bind_eq_some_iff.mp hrest
  rw [given, filter_eq_some_iff] at hleaf
  cases hlocated
  refine ⟨?_, mem_of_find?_eq_some hleaf.1, find?_some hleaf.1⟩
  cases tab with
  | terminal tab =>
    cases hterminal
    rfl
  | content tab => cases hterminal

theorem mem_of_findSome_findPane (hpane : workspace.tabs.findSome? (findPane passes) = some pane) :
    pane.leafId ∈ workspace.paneIds ∧ passes pane.tab pane.leafId = true := by
  obtain ⟨tab, htab, hfound⟩ := exists_of_findSome?_eq_some hpane
  obtain ⟨rfl, hleaf, hpasses⟩ := mem_of_findPane hfound
  exact ⟨mem_paneIds htab hleaf, hpasses⟩

theorem mem_of_locatePane {paneKey : String} (hpane : locatePane workspace paneKey = some pane) :
    pane.leafId ∈ workspace.paneIds :=
  (mem_of_findSome_findPane hpane).1

variable {group : LayoutGroup}

theorem mem_of_findGroup {groupId : String} (hgroup : findGroup workspace groupId = some group) :
    group ∈ workspace.groups ∧ group.id = groupId :=
  ⟨mem_of_find?_eq_some hgroup, by simpa using find?_some hgroup⟩

theorem mem_of_groupListing (hgroup : groupListing workspace tabId = some group) :
    group ∈ workspace.groups ∧ tabId ∈ group.tabOrder :=
  ⟨mem_of_find?_eq_some hgroup, by simpa using find?_some hgroup⟩

/-! ## Pane data -/

theorem leaf?_setLeaf (workspace : WorkspaceLayout P) (leafId other : String)
    (leaf : LayoutLeaf P) :
    (setLeaf workspace leafId leaf).leaf? other =
      if other = leafId then (if leaf.isEmpty then none else some leaf)
      else workspace.leaf? other := by
  have hkept : (workspace.leaves.getD ∅).lookup other = workspace.leaf? other := by
    rw [WorkspaceLayout.leaf?]
    cases workspace.leaves <;> rfl
  rw [WorkspaceLayout.leaf?, setLeaf]
  dsimp only [bind_some]
  by_cases hempty : leaf.isEmpty
  · rw [if_pos hempty, OrderedMap.lookup_erase_eq, hkept, if_pos hempty]
  · rw [if_neg hempty, OrderedMap.lookup_set, hkept, if_neg hempty]

variable {leaf : LayoutLeaf P}

theorem binding_of_isEmpty (hempty : leaf.isEmpty = true) : leaf.binding = unbound := by
  simp only [LayoutLeaf.isEmpty, Bool.and_eq_true, isNone_iff_eq_none] at hempty
  rw [LayoutLeaf.binding, hempty.1.1.1.1.1.1, hempty.1.1.1.1.2]
  rfl

theorem bindingOf_setLeaf (workspace : WorkspaceLayout P) (leafId other : String)
    (leaf : LayoutLeaf P) :
    (setLeaf workspace leafId leaf).bindingOf other =
      if other = leafId then leaf.binding else workspace.bindingOf other := by
  rw [WorkspaceLayout.bindingOf, leaf?_setLeaf]
  by_cases hother : other = leafId
  · rw [if_pos hother, if_pos hother]
    by_cases hempty : leaf.isEmpty
    · rw [if_pos hempty, binding_of_isEmpty hempty]
      rfl
    · rw [if_neg hempty]
      rfl
  · rw [if_neg hother, if_neg hother, WorkspaceLayout.bindingOf]

theorem PanesSound.leafOf_single
    (hsound : PanesSound workspace.paneIds workspace.leaf?) (leafId : String) :
    ((leafOf workspace leafId).sleeping.isSome && (leafOf workspace leafId).resume.isSome) =
      false := by
  rw [leafOf]
  cases hleaf : workspace.leaf? leafId with
  | none => rfl
  | some leaf => exact hsound.single leafId leaf hleaf

variable {spare : String → Prop}

theorem sound_setLeaf (hsound : WorkspaceSound spare workspace) (hleaf : leafId ∈ workspace.paneIds)
    {leaf : LayoutLeaf P} (hsingle : (leaf.sleeping.isSome && leaf.resume.isSome) = false) :
    WorkspaceSound spare (setLeaf workspace leafId leaf) := by
  refine ⟨hsound.groups, hsound.panes.nodup, fun other stored hstored => ?_,
    fun other stored hstored => ?_⟩
  · rw [leaf?_setLeaf] at hstored
    by_cases hother : other = leafId
    · rw [hother]
      exact hleaf
    · rw [if_neg hother] at hstored
      exact hsound.panes.held other stored hstored
  · rw [leaf?_setLeaf] at hstored
    by_cases hother : other = leafId
    · rw [if_pos hother] at hstored
      by_cases hempty : leaf.isEmpty
      · rw [if_pos hempty] at hstored
        cases hstored
      · rw [if_neg hempty, Option.some.injEq] at hstored
        rw [← hstored]
        exact hsingle
    · rw [if_neg hother] at hstored
      exact hsound.panes.single other stored hstored

theorem evolves_setLeaf (hbinding : leaf.binding = workspace.bindingOf leafId ∨ leaf.ptyId = none) :
    Evolves [] [] workspace (setLeaf workspace leafId leaf) := by
  refine ⟨fun _ htab => Or.inl htab, fun _ hpane => Or.inl hpane, fun other => ?_⟩
  rw [bindingOf_setLeaf]
  by_cases hother : other = leafId
  · rw [if_pos hother, hother]
    exact hbinding
  · rw [if_neg hother]
    exact Or.inl rfl

theorem Evolves.replaces_setLeaf {tabs panes : List String} {old new : WorkspaceLayout P}
    (hevolves : Evolves tabs panes old new) {workspaces : Workspaces P}
    (htabs : ∀ tabId ∈ tabs, Unused WorkspaceLayout.tabIds workspaces tabId)
    (hpanes : ∀ paneId ∈ panes, Unused WorkspaceLayout.paneIds workspaces paneId)
    {leaf : LayoutLeaf P} (hfree : TerminalFree workspaces leafId leaf.binding) :
    Replaces workspaces old (setLeaf new leafId leaf) leafId := by
  refine ⟨fun tabId htab => (hevolves.tabs tabId htab).imp id (htabs tabId),
    fun paneId hpane => (hevolves.panes paneId hpane).imp id (hpanes paneId),
    fun other hother => ?_, ?_⟩
  · rw [bindingOf_setLeaf, if_neg hother]
    exact hevolves.bindings other
  · rw [bindingOf_setLeaf, if_pos rfl]
    exact Or.inr (Or.inr hfree)

theorem replaces_setLeaf {workspaces : Workspaces P}
    (hfree : TerminalFree workspaces leafId leaf.binding) :
    Replaces workspaces workspace (setLeaf workspace leafId leaf) leafId :=
  (Evolves.refl workspace).replaces_setLeaf (fun _ htab => absurd htab not_mem_nil)
    (fun _ hpane => absurd hpane not_mem_nil) hfree

/-! ## Replacing a tab -/

section

variable (hsound : WorkspaceSound spare workspace)
include hsound

variable {tab next : LayoutTab P}

theorem replaceTab_frame (htab : tab ∈ workspace.tabs) (hid : next.id = tab.id)
    (hpanes : next.paneIds = tab.paneIds) :
    SameFrame workspace (replaceTab workspace next) := by
  refine ⟨map_replaceKeyed LayoutTab.id next workspace.tabs, ?_, rfl, rfl, rfl⟩
  rw [WorkspaceLayout.paneIds, WorkspaceLayout.paneIds, replaceTab, replaceKeyed, flatMap_map]
  apply flatMap_congr
  intro other hother
  by_cases hsame : other.id = next.id
  · rw [if_pos hsame, hpanes, hsound.tab_eq hother htab (hsame.trans hid)]
  · rw [if_neg hsame]

theorem paneIds_perm {tab : LayoutTab P} (htab : tab ∈ workspace.tabs) :
    workspace.paneIds.Perm (tab.paneIds ++
      (removeKeyed LayoutTab.id tab.id workspace.tabs).flatMap LayoutTab.paneIds) :=
  flatMap_perm LayoutTab.id hsound.groups.nodup htab LayoutTab.paneIds

theorem paneIds_replaceTab (htab : tab ∈ workspace.tabs) (hid : next.id = tab.id) :
    (replaceTab workspace next).paneIds.Perm (next.paneIds ++
      (removeKeyed LayoutTab.id tab.id workspace.tabs).flatMap LayoutTab.paneIds) :=
  flatMap_replaceKeyed_perm LayoutTab.id hsound.groups.nodup htab hid LayoutTab.paneIds

theorem groups_replaceTab (next : LayoutTab P) :
    GroupsSound spare (replaceTab workspace next).tabIds (replaceTab workspace next).groups
      (replaceTab workspace next).groupLayout := by
  rw [WorkspaceLayout.tabIds, replaceTab, map_replaceKeyed]
  exact hsound.groups

theorem sound_replaceTab (htab : tab ∈ workspace.tabs) (hid : next.id = tab.id)
    {added : List String} (hpanes : next.paneIds.Perm (tab.paneIds ++ added)) (hadded : added.Nodup)
    (hnew : ∀ paneId ∈ added, paneId ∉ workspace.paneIds) :
    WorkspaceSound spare (replaceTab workspace next) ∧
      Evolves [] added workspace (replaceTab workspace next) := by
  have hperm : (replaceTab workspace next).paneIds.Perm (workspace.paneIds ++ added) := by
    refine (paneIds_replaceTab hsound htab hid).trans ?_
    refine (hpanes.append_right _).trans ?_
    rw [append_assoc]
    refine (perm_append_comm.append_left _).trans ?_
    rw [← append_assoc]
    exact (paneIds_perm hsound htab).symm.append_right added
  refine ⟨⟨groups_replaceTab hsound next, ?_⟩, ?_⟩
  · apply PanesSound.congr _ hperm.symm
    refine ⟨hsound.panes.nodup.append hadded fun paneId hpane hadd => hnew paneId hadd hpane,
      fun leafId leaf hleaf => mem_append_left _ (hsound.panes.held leafId leaf hleaf),
      hsound.panes.single⟩
  · refine ⟨fun tabId htabId => Or.inl ?_, fun paneId hpane => ?_, fun _ => Or.inl rfl⟩
    · rwa [WorkspaceLayout.tabIds, replaceTab, map_replaceKeyed] at htabId
    · exact mem_append.mp (hperm.mem_iff.mp hpane)

end

/-! ## Placing a tab -/

def placedGroupId (runtime : LayoutRuntime P) (workspace : WorkspaceLayout P) (key : String)
    (placement : TabPlacement) (context : LayoutContext) : String :=
  ((groupToPlaceIn workspace placement).map (·.id)).getD
    (firstGroupId runtime key placement context)

section Placing

variable (runtime : LayoutRuntime P) (workspace : WorkspaceLayout P) (key : String)
  (tab : LayoutTab P) (placement : TabPlacement) (context : LayoutContext)

@[simp]
theorem tabs_placeNewTab :
    (placeNewTab runtime workspace key tab placement context).tabs = workspace.tabs ++ [tab] :=
  rfl

@[simp]
theorem tabIds_placeNewTab : (placeNewTab runtime workspace key tab placement context).tabIds =
      workspace.tabIds ++ [tab.id] := by
  simp [WorkspaceLayout.tabIds]

@[simp]
theorem paneIds_placeNewTab : (placeNewTab runtime workspace key tab placement context).paneIds =
      workspace.paneIds ++ tab.paneIds := by
  simp [WorkspaceLayout.paneIds]

@[simp]
theorem leaf?_placeNewTab :
    (placeNewTab runtime workspace key tab placement context).leaf? = workspace.leaf? := rfl

end Placing

theorem mem_of_groupToPlaceIn {placement : TabPlacement}
    (hgroup : groupToPlaceIn workspace placement = some group) :
    group ∈ workspace.groups := by
  rw [groupToPlaceIn, or_eq_some_iff] at hgroup
  rcases hgroup with hnamed | ⟨_, hrest⟩
  · obtain ⟨groupId, _, hfound⟩ := bind_eq_some_iff.mp hnamed
    exact (mem_of_findGroup hfound).1
  · rw [or_eq_some_iff] at hrest
    rcases hrest with hanchor | ⟨_, hhead⟩
    · obtain ⟨anchor, _, hfound⟩ := bind_eq_some_iff.mp hanchor
      exact (mem_of_groupListing hfound).1
    · exact mem_of_mem_head? hhead

theorem groups_of_groupToPlaceIn_none {placement : TabPlacement}
    (hgroup : groupToPlaceIn workspace placement = none) : workspace.groups = [] := by
  rw [groupToPlaceIn, or_eq_none_iff, or_eq_none_iff] at hgroup
  exact head?_eq_none_iff.mp hgroup.2.2

theorem placedOrder_perm (hnodup : order.Nodup) {tab : LayoutTab P}
    (htab : tab.id ∉ order) (index : Option ℤ) (tabs : List (LayoutTab P))
    (anchor : Option String) :
    (match index with
      | some index => spliceIn (order.filter (· ≠ tab.id)) index tab.id
      | none => insertTabIdIntoOrder order tabs tab.id tab.isPinned anchor).Perm
        (tab.id :: order) := by
  cases index with
  | none => exact insertTabIdIntoOrder_perm hnodup htab tabs tab.isPinned anchor
  | some index =>
    have hfilter := filter_ne_of_not_mem htab
    dsimp only
    rw [hfilter]
    exact spliceIn_perm order index tab.id

section

variable (runtime : LayoutRuntime P) (key : String) (placement : TabPlacement)
  (context : LayoutContext) {workspace : WorkspaceLayout P} {spare spare' : String → Prop}

/-- The tab joins its group, which is then no spare. -/
theorem groups_placeNewTab {tab : LayoutTab P}
    (hsound : GroupsSound spare workspace.tabIds workspace.groups workspace.groupLayout)
    (hnew : tab.id ∉ workspace.tabIds) (hspare : ∀ groupId, spare groupId →
      groupId ≠ placedGroupId runtime workspace key placement context → spare' groupId) :
    GroupsSound spare' (placeNewTab runtime workspace key tab placement context).tabIds
      (placeNewTab runtime workspace key tab placement context).groups
      (placeNewTab runtime workspace key tab placement context).groupLayout := by
  rw [tabIds_placeNewTab]
  rw [placeNewTab]
  rw [placedGroupId] at hspare
  cases hgroup : groupToPlaceIn workspace placement with
  | some group =>
    rw [hgroup] at hspare
    have hmem := mem_of_groupToPlaceIn hgroup
    have hlisted : tab.id ∉ group.tabOrder := fun htab =>
      hnew (hsound.mem_of_listed hmem htab)
    dsimp only
    exact hsound.place hmem hnew
      (placedOrder_perm (hsound.order_nodup hmem) hlisted placement.index _ _) hspare
  | none =>
    rw [hgroup] at hspare
    have hnone := groups_of_groupToPlaceIn_none hgroup
    generalize firstGroupId runtime key placement context = groupId at *
    have hspared : GroupsSound (· = groupId) workspace.tabIds
        (workspace.groups ++ [(⟨groupId, []⟩ : LayoutGroup)]) workspace.groupLayout := by
      rw [hnone] at hsound ⊢
      exact hsound.first groupId
    dsimp only
    refine hspared.place (mem_append_right _ (mem_singleton_self _)) hnew
      (placedOrder_perm nodup_nil not_mem_nil placement.index _ _) ?_
    intro other hother hdiffer
    exact absurd hother hdiffer

theorem sound_placeNewTab {tab : LayoutTab P} (hsound : WorkspaceSound spare workspace)
    (hnew : tab.id ∉ workspace.tabIds) (hpanes : tab.paneIds.Nodup)
    (hnewPanes : ∀ paneId ∈ tab.paneIds, paneId ∉ workspace.paneIds)
    (hspare : ∀ groupId, spare groupId →
      groupId ≠ placedGroupId runtime workspace key placement context → spare' groupId) :
    WorkspaceSound spare' (placeNewTab runtime workspace key tab placement context) := by
  refine ⟨groups_placeNewTab runtime key placement context hsound.groups hnew hspare, ?_⟩
  rw [paneIds_placeNewTab, leaf?_placeNewTab]
  exact ⟨hsound.panes.nodup.append hpanes fun paneId hpane htab => hnewPanes paneId htab hpane,
    fun leafId leaf hleaf => mem_append_left _ (hsound.panes.held leafId leaf hleaf),
    hsound.panes.single⟩

end

theorem evolves_placeNewTab (runtime : LayoutRuntime P) (workspace : WorkspaceLayout P)
    (key : String) (tab : LayoutTab P) (placement : TabPlacement) (context : LayoutContext) :
    Evolves [tab.id] tab.paneIds workspace
      (placeNewTab runtime workspace key tab placement context) := by
  refine ⟨fun tabId htab => ?_, fun paneId hpane => ?_, fun _ => Or.inl rfl⟩
  · rw [tabIds_placeNewTab] at htab
    exact mem_append.mp htab
  · rw [paneIds_placeNewTab] at hpane
    exact mem_append.mp hpane

/-! ## Removing a tab -/

theorem PanesSound.dropped {paneIds kept gone : List String}
    {leaf? leaf?' : String → Option (LayoutLeaf P)} (hsound : PanesSound paneIds leaf?)
    (hperm : paneIds.Perm (gone ++ kept))
    (hleaf : ∀ leafId, leaf?' leafId = if leafId ∈ gone then none else leaf? leafId) :
    PanesSound kept leaf?' := by
  have hnodup := hperm.nodup_iff.mp hsound.nodup
  refine ⟨(nodup_append.mp hnodup).2.1, fun leafId leaf hsome => ?_, fun leafId leaf hsome => ?_⟩
  · rw [hleaf] at hsome
    by_cases hgone : leafId ∈ gone
    · rw [if_pos hgone] at hsome
      cases hsome
    · rw [if_neg hgone] at hsome
      have hmem := hperm.mem_iff.mp (hsound.held leafId leaf hsome)
      exact (mem_append.mp hmem).resolve_left hgone
  · rw [hleaf] at hsome
    by_cases hgone : leafId ∈ gone
    · rw [if_pos hgone] at hsome
      cases hsome
    · rw [if_neg hgone] at hsome
      exact hsound.single leafId leaf hsome

theorem tabIds_removeTab (workspace : WorkspaceLayout P) (tabId : String) :
    (removeTabFromWorkspace workspace tabId).tabIds = workspace.tabIds.filter (· ≠ tabId) :=
  map_removeKeyed LayoutTab.id tabId workspace.tabs

theorem groups_removeTab
    (hsound : GroupsSound spare workspace.tabIds workspace.groups workspace.groupLayout)
    (tabId : String) :
    GroupsSound spare (removeTabFromWorkspace workspace tabId).tabIds
      (removeTabFromWorkspace workspace tabId).groups
      (removeTabFromWorkspace workspace tabId).groupLayout := by
  rw [tabIds_removeTab]
  exact hsound.removed tabId

variable {workspace next : WorkspaceLayout P}

/-- A tab goes with its panes, whose data `drop` leaves out. -/
theorem sound_removeTab (hsound : WorkspaceSound spare workspace) {tab : LayoutTab P}
    (htab : tab ∈ workspace.tabs)
    (htabs : next.tabs = (removeTabFromWorkspace workspace tab.id).tabs)
    (hgroups : next.groups = (removeTabFromWorkspace workspace tab.id).groups)
    (hlayout : next.groupLayout = (removeTabFromWorkspace workspace tab.id).groupLayout)
    (hleaf : ∀ leafId, next.leaf? leafId =
      if leafId ∈ tab.paneIds then none else workspace.leaf? leafId) :
    WorkspaceSound spare next ∧ Evolves [] [] workspace next := by
  have htabIds : next.tabIds = (removeTabFromWorkspace workspace tab.id).tabIds := by
    rw [WorkspaceLayout.tabIds, htabs]
    rfl
  have hpaneIds : next.paneIds =
      (removeKeyed LayoutTab.id tab.id workspace.tabs).flatMap LayoutTab.paneIds := by
    rw [WorkspaceLayout.paneIds, htabs]
    rfl
  refine ⟨⟨?_, ?_⟩, fun tabId hmem => Or.inl ?_, fun paneId hmem => Or.inl ?_, fun leafId => ?_⟩
  · rw [htabIds, hgroups, hlayout]
    exact groups_removeTab hsound.groups tab.id
  · rw [hpaneIds]
    exact PanesSound.dropped hsound.panes (paneIds_perm hsound htab) hleaf
  · rw [htabIds, tabIds_removeTab] at hmem
    exact (mem_filter.mp hmem).1
  · rw [hpaneIds] at hmem
    exact (paneIds_perm hsound htab).mem_iff.mpr (mem_append_right _ hmem)
  · by_cases hgone : leafId ∈ tab.paneIds
    · right
      have hnone : next.leaf? leafId = none := by rw [hleaf, if_pos hgone]
      rw [bindingOf_unbound hnone]
      rfl
    · left
      rw [WorkspaceLayout.bindingOf, hleaf, if_neg hgone]
      rfl

theorem leaf?_map_eraseAll (workspace : WorkspaceLayout P) (gone : List String) (leafId : String) :
    (workspace.leaves.map (·.eraseAll gone)).bind (·.lookup leafId) =
      if leafId ∈ gone then none else workspace.leaf? leafId := by
  rw [WorkspaceLayout.leaf?]
  cases workspace.leaves with
  | none => simp
  | some leaves => exact OrderedMap.lookup_eraseAll leaves gone leafId

theorem leaf?_map_erase (workspace : WorkspaceLayout P) (gone leafId : String) :
    (workspace.leaves.map (·.erase gone)).bind (·.lookup leafId) =
      if leafId = gone then none else workspace.leaf? leafId := by
  rw [WorkspaceLayout.leaf?]
  cases workspace.leaves with
  | none => simp
  | some leaves => exact OrderedMap.lookup_erase_eq leaves gone leafId

theorem sound_closeTab (runtime : LayoutRuntime P) {spare : String → Prop}
    {workspace : WorkspaceLayout P} (hsound : WorkspaceSound spare workspace)
    {tab : LayoutTab P} (htab : tab ∈ workspace.tabs) :
    WorkspaceSound spare (closeTab runtime workspace tab) ∧
      Evolves [] [] workspace (closeTab runtime workspace tab) := by
  refine sound_removeTab hsound htab ?_ ?_ ?_ (leaf?_map_eraseAll workspace tab.paneIds)
  · rfl
  · rfl
  · rfl

theorem paneIds_withoutPanes {tabs : List (LayoutTab P)}
    (hpanes : ∀ tab ∈ tabs, tab.id = tabId → tab.paneIds = []) :
    (removeKeyed LayoutTab.id tabId tabs).flatMap LayoutTab.paneIds =
      tabs.flatMap LayoutTab.paneIds := by
  induction tabs with
  | nil => rfl
  | cons tab rest ih =>
    have hrest := ih fun other hother => hpanes other (mem_cons_of_mem tab hother)
    rw [removeKeyed] at hrest ⊢
    by_cases hid : tab.id = tabId
    · rw [filter_cons_of_neg (by simpa using hid), hrest, flatMap_cons,
        hpanes tab mem_cons_self hid, nil_append]
    · rw [filter_cons_of_pos (by simpa using hid), flatMap_cons, flatMap_cons, hrest]

theorem sound_withoutPanes (hsound : WorkspaceSound spare workspace) {tabId : String}
    (hpanes : ∀ tab ∈ workspace.tabs, tab.id = tabId → tab.paneIds = [])
    (hframe : SameFrame (removeTabFromWorkspace workspace tabId) next) :
    WorkspaceSound spare next ∧ Evolves [] [] workspace next := by
  have hpaneIds : (removeTabFromWorkspace workspace tabId).paneIds = workspace.paneIds :=
    paneIds_withoutPanes hpanes
  have hremoved : WorkspaceSound spare (removeTabFromWorkspace workspace tabId) := by
    refine ⟨groups_removeTab hsound.groups tabId, ?_⟩
    rw [hpaneIds]
    exact hsound.panes
  have hevolves : Evolves [] [] workspace (removeTabFromWorkspace workspace tabId) := by
    refine ⟨fun other hmem => Or.inl ?_, fun paneId hmem => Or.inl ?_, fun _ => Or.inl rfl⟩
    · rw [tabIds_removeTab] at hmem
      exact (mem_filter.mp hmem).1
    · rw [hpaneIds] at hmem
      exact hmem
  exact ⟨hframe.sound hremoved, hevolves.trans hframe.evolves⟩

theorem root_withoutChat (panes : LayoutTerminalPanes P) (leafId : String) :
    (withoutChat panes leafId).root = panes.root := by
  rw [withoutChat]
  split <;> rfl

theorem leavesOf_removeLayoutLeaf (root : Option (TerminalPaneLayoutNode P)) (leafId : String) :
    SplitTree.leavesOf (removeLayoutLeaf root leafId) =
      (SplitTree.leavesOf root).filter (· ≠ leafId) := by
  cases root with
  | none => rfl
  | some tree => exact leavesOf_remove tree leafId

/-- A workspace that keeps its tabs and all its panes but one. -/
theorem sound_dropPane (hsound : WorkspaceSound spare workspace)
    (htabIds : next.tabIds = workspace.tabIds) (hgroups : next.groups = workspace.groups)
    (hlayout : next.groupLayout = workspace.groupLayout)
    (hpanes : workspace.paneIds.Perm (leafId :: next.paneIds)) (hleaf : ∀ other, next.leaf? other =
      if other = leafId then none else workspace.leaf? other) :
    WorkspaceSound spare next ∧ Evolves [] [] workspace next := by
  refine ⟨⟨?_, ?_⟩, fun tabId hmem => Or.inl (htabIds ▸ hmem), fun paneId hmem => Or.inl ?_,
    fun other => ?_⟩
  · rw [htabIds, hgroups, hlayout]
    exact hsound.groups
  · have hgone : workspace.paneIds.Perm ([leafId] ++ next.paneIds) := hpanes
    apply PanesSound.dropped hsound.panes hgone
    intro other
    rw [hleaf other]
    simp only [mem_singleton]
  · exact hpanes.mem_iff.mpr (mem_cons_of_mem _ hmem)
  · by_cases hother : other = leafId
    · right
      have hnone : next.leaf? other = none := by rw [hleaf, if_pos hother]
      rw [bindingOf_unbound hnone]
      rfl
    · left
      rw [WorkspaceLayout.bindingOf, hleaf, if_neg hother]
      rfl

/-- A retired pane leaves its tab, and the last one closes it. -/
theorem sound_retirePane (hsound : WorkspaceSound spare workspace) {tab : LayoutTerminalTab P}
    (htab : LayoutTab.terminal tab ∈ workspace.tabs) (hleaf : leafId ∈ leafIdsOf tab) :
    WorkspaceSound spare (retirePane workspace tab leafId) ∧
      Evolves [] [] workspace (retirePane workspace tab leafId) := by
  have hpaneIds := paneIds_perm hsound htab
  have hnodup : (leafIdsOf tab).Nodup :=
    (nodup_append.mp (hpaneIds.nodup_iff.mp hsound.panes.nodup)).1
  have hrest := leavesOf_removeLayoutLeaf tab.panes.root leafId
  have hapart : (leafIdsOf tab).Perm (leafId :: (leafIdsOf tab).filter (· ≠ leafId)) :=
    perm_filter_ne hnodup hleaf
  cases hroot : removeLayoutLeaf tab.panes.root leafId with
  | none =>
    have hwithout : withoutPane workspace tab leafId =
        removeTabFromWorkspace workspace tab.id := by rw [withoutPane, hroot]
    rw [hroot, leavesOf_none] at hrest
    have honly : (leafIdsOf tab).filter (· ≠ leafId) = [] := hrest.symm
    rw [honly] at hapart
    rw [retirePane, hwithout]
    refine sound_removeTab hsound htab ?_ ?_ ?_ fun other => ?_
    · rfl
    · rfl
    · rfl
    · have hmem : other ∈ (LayoutTab.terminal tab).paneIds ↔ other = leafId := by
        rw [← mem_singleton]
        exact hapart.mem_iff
      simp only [hmem]
      exact leaf?_map_erase workspace leafId other
  | some root =>
    generalize hnext : LayoutTab.terminal { tab with
      panes := withoutChat { tab.panes with root := some root } leafId } = next
    have hwithout : withoutPane workspace tab leafId = replaceTab workspace next := by
      rw [withoutPane, hroot, ← hnext]
    have hid : next.id = (LayoutTab.terminal tab).id := by rw [← hnext]; rfl
    rw [hroot, leavesOf_some] at hrest
    have hpanes : next.paneIds = (leafIdsOf tab).filter (· ≠ leafId) := by
      rw [← hnext, LayoutTab.paneIds, root_withoutChat]
      exact hrest
    have hreplaced := paneIds_replaceTab hsound htab hid
    rw [hpanes] at hreplaced
    rw [retirePane, hwithout]
    refine sound_dropPane hsound (map_replaceKeyed LayoutTab.id next workspace.tabs) ?_ ?_ ?_
      (leaf?_map_erase workspace leafId)
    · rfl
    · rfl
    · exact hpaneIds.trans ((hapart.append_right _).trans (hreplaced.symm.cons leafId))

end Wakii.StepsSound
