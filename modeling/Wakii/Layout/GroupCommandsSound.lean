import Wakii.Layout.TabCommandsSound

/-!
# Commands on tab groups keep a layout sound

A tab that changes groups leaves one order and joins another; a group that was
split off is sound once it holds its tab.
-/

namespace Wakii.GroupCommandsSound

open List KeyedLists OrderedCollections SplitTrees
open Wakii.CommandSteps Wakii.CommandTypes Wakii.GroupCommands Wakii.GroupSound
open Wakii.LayoutModel Wakii.LayoutSoundness Wakii.LayoutTrees Wakii.StepsSound
open Wakii.TabCommands Wakii.TabCommandsSound Wakii.TerminalOwners

variable {P : Type} {spare : String → String → Prop} {edit : LayoutEdit P} {key : String}
  {workspace : WorkspaceLayout P}

section

variable {tabId : String} {group : LayoutGroup}
  (hsource : sourceGroupOf workspace tabId = some group)
include hsource

theorem mem_of_sourceGroupOf : group ∈ workspace.groups ∧ tabId ∈ group.tabOrder := by
  obtain ⟨tab, _, hlisting⟩ := Option.bind_eq_some_iff.mp hsource
  exact mem_of_groupListing hlisting

theorem groupListing_of_sourceGroupOf : groupListing workspace tabId = some group := by
  obtain ⟨tab, _, hlisting⟩ := Option.bind_eq_some_iff.mp hsource
  exact hlisting

end

/-! ## Moving a tab -/

theorem withMovedPin_frame (workspace : WorkspaceLayout P) (command : MoveTab) :
    SameFrame workspace (withMovedPin workspace command) := by
  rw [withMovedPin]
  cases command.isPinned with
  | none => exact ⟨rfl, rfl, rfl, rfl, rfl⟩
  | some isPinned =>
    refine ⟨?_, ?_, rfl, rfl, rfl⟩
    · rw [WorkspaceLayout.tabIds, WorkspaceLayout.tabIds, map_map]
      apply map_congr_left
      intro tab _
      dsimp only [Function.comp_apply]
      split
      · rw [LayoutTab.id, LayoutTab.fields_mapFields]
        rfl
      · rfl
    · rw [WorkspaceLayout.paneIds, WorkspaceLayout.paneIds, flatMap_map]
      apply flatMap_congr
      intro tab _
      split
      · exact LayoutTab.paneIds_mapFields _ tab
      · rfl

variable {source target : LayoutGroup} {groups : List LayoutGroup}
  {layout : Option (TabGroupLayoutNode P)}

/-- The groups once a tab went from one to another: it is stripped from all and
placed in the target, and the groups left empty close. -/
theorem movedGroups_eq {spare : String → Prop} {tabIds : List String}
    (hsound : GroupsSound spare tabIds groups layout) (hsource : source ∈ groups)
    (htarget : target ∈ groups) (hdiffer : source.id ≠ target.id) {tabId : String}
    (htab : tabId ∈ source.tabOrder) (index : ℤ) :
    movedGroups groups source target.id tabId index = (replaceKeyed LayoutGroup.id
        { target with tabOrder := spliceIn (target.tabOrder.filter (· ≠ tabId)) index tabId }
        (groups.map fun group =>
          { group with tabOrder := group.tabOrder.filter (· ≠ tabId) })).filter
            (·.tabOrder ≠ []) := by
  rw [movedGroups, replaceKeyed, map_map]
  congr 1
  apply map_congr_left
  intro group hgroup
  dsimp only [Function.comp_apply]
  by_cases hisSource : group.id = source.id
  · rw [if_pos hisSource, if_neg (by rw [hisSource]; exact hdiffer)]
  · rw [if_neg hisSource]
    by_cases hisTarget : group.id = target.id
    · have hsame := hsound.eq_of_id_eq hgroup htarget hisTarget
      rw [if_pos hisTarget, if_pos hisTarget, hsame]
    · rw [if_neg hisTarget, if_neg hisTarget]
      have hother : tabId ∉ group.tabOrder := fun hlists =>
        hisSource (congrArg LayoutGroup.id (hsound.eq_of_listed hgroup hsource hlists htab))
      rw [SplitTree.filter_ne_of_not_mem hother]

theorem groups_moved {spare : String → Prop} {tabIds : List String}
    (hsound : GroupsSound spare tabIds groups layout) (hsource : source ∈ groups)
    (htarget : target ∈ groups) (hdiffer : source.id ≠ target.id) {tabId : String}
    (htab : tabId ∈ source.tabOrder) (index : ℤ) :
    GroupsSound (fun _ => False) tabIds (movedGroups groups source target.id tabId index)
      (pruneGroupLeaves ((movedGroups groups source target.id tabId index).map (·.id)) layout) := by
  have htabIds := hsound.mem_of_listed hsource htab
  have hother : tabId ∉ target.tabOrder := fun hlists =>
    hdiffer (congrArg LayoutGroup.id (hsound.eq_of_listed hsource htarget htab hlists))
  have hstripped := hsound.stripped tabId
  have hmem : { target with tabOrder := target.tabOrder.filter (· ≠ tabId) } ∈
      groups.map fun group => { group with tabOrder := group.tabOrder.filter (· ≠ tabId) } :=
    mem_map.mpr ⟨target, htarget, rfl⟩
  have hgone : tabId ∉ tabIds.filter (· ≠ tabId) := by simp
  have hplaced := hstripped.place hmem hgone
    (spliceIn_perm (target.tabOrder.filter (· ≠ tabId)) index tabId)
    fun _ _ _ => trivial
  have hperm : (tabIds.filter (· ≠ tabId) ++ [tabId]).Perm tabIds :=
    (perm_append_singleton tabId _).trans (perm_filter_ne hsound.nodup htabIds).symm
  have hpruned := (hplaced.congr hperm).pruned
  rw [movedGroups_eq hsound hsource htarget hdiffer htab index]
  exact hpruned

theorem sound_regrouped {spare : String → Prop} (hsound : WorkspaceSound spare workspace)
    (hgroups : GroupsSound spare workspace.tabIds groups layout) :
    WorkspaceSound spare { workspace with groups, groupLayout := layout } ∧
      Evolves [] [] workspace { workspace with groups, groupLayout := layout } :=
  ⟨⟨hgroups, hsound.panes⟩, fun _ htab => Or.inl htab, fun _ hpane => Or.inl hpane,
    fun _ => Or.inl rfl⟩

section Held

variable (hsound : LayoutSound spare edit.model.workspaces)
  (hlookup : edit.workspace? key = some workspace)

include hsound hlookup

variable {groups : List LayoutGroup} (runtime : LayoutRuntime P)
  {layout : Option (TabGroupLayoutNode P)}

theorem keeps_regrouped (hgroups : GroupsSound (spare key) workspace.tabIds groups layout)
    {result : LayoutCommandResult} :
    Keeps spare (applied (withWorkspace edit key
      { workspace with groups, groupLayout := layout }) result) :=
  keeps_evolved hsound hlookup
    (sound_regrouped (hsound.workspace key workspace hlookup) hgroups)

theorem keeps_movedPin
    (hgroups : GroupsSound (spare key) workspace.tabIds groups layout) (command : MoveTab) :
    Keeps spare (applied (withWorkspace edit key (withMovedPin
      { workspace with groups, groupLayout := layout } command))) := by
  have hregrouped := sound_regrouped (hsound.workspace key workspace hlookup) hgroups
  have hframe := withMovedPin_frame
    { workspace with groups, groupLayout := layout } command
  exact keeps_evolved hsound hlookup ⟨hframe.sound hregrouped.1, hregrouped.2.trans hframe.evolves⟩

/-- A tab moves into a group and may empty its own. -/
theorem keeps_moveTab {command : MoveTab} (hkey : command.workspace = key) :
    Keeps spare (moveTab runtime edit workspace command) := by
  have hgroups := (hsound.workspace key workspace hlookup).groups
  rw [moveTab]
  cases hsource : sourceGroupOf workspace command.tabId with
  | none => exact keeps_refuse _
  | some source =>
    obtain ⟨hsourceMem, htab⟩ := mem_of_sourceGroupOf hsource
    cases htarget : findGroup workspace command.toGroupId with
    | none => exact keeps_refuse _
    | some target =>
      obtain ⟨htargetMem, htargetId⟩ := mem_of_findGroup htarget
      dsimp only
      generalize anchoredMoveIndex
        (target.tabOrder.filter (· ≠ command.tabId)) command = index
      rw [hkey]
      by_cases hsame : source.id = command.toGroupId
      · rw [if_pos hsame]
        refine keeps_movedPin hsound hlookup (hgroups.mapOrders ?_ ?_) command
        · intro group _
          split <;> rfl
        · intro group hgroup
          by_cases hisSource : group.id = source.id
          · rw [if_pos hisSource, hgroups.eq_of_id_eq hgroup hsourceMem hisSource]
            exact splice_filter_perm (hgroups.order_nodup hsourceMem) htab index
          · rw [if_neg hisSource]
      · rw [if_neg hsame]
        split
        · exact keeps_refuse _
        · have hlisting := groupListing_of_sourceGroupOf hsource
          have hdiffer : source.id ≠ target.id := by
            rw [htargetId]
            exact hsame
          have hbuilt : buildHeadlessTabGroupMove workspace command.tabId command.toGroupId
              index = some
                ⟨movedGroups workspace.groups source target.id command.tabId index,
                  pruneGroupLeaves ((movedGroups workspace.groups source target.id
                    command.tabId index).map (·.id)) workspace.groupLayout⟩ := by
            rw [buildHeadlessTabGroupMove, hlisting, htarget, htargetId]
            exact if_neg hsame
          rw [hbuilt]
          exact keeps_movedPin hsound hlookup ((groups_moved hgroups hsourceMem htargetMem
            hdiffer htab index).mono fun _ hnone => hnone.elim) command

/-! ## Splitting a group off -/

omit hsound hlookup in
/-- A tab split off stands in a group of its own. -/
theorem groups_splitOff {spare : String → Prop} {tabIds : List String}
    (hsound : GroupsSound spare tabIds groups layout) {source beside : LayoutGroup}
    (hsource : source ∈ groups) (hbeside : beside ∈ groups) {tabId newGroupId : String}
    (htab : tabId ∈ source.tabOrder) (hnew : newGroupId ∉ groupIdsOf groups) (side : GroupSide)
    {split : List LayoutGroup}
    (hsplit : split = ((groups.map fun group : LayoutGroup =>
        if group.id = source.id then
          { group with tabOrder := source.tabOrder.filter (· ≠ tabId) }
        else group) ++ [(⟨newGroupId, [tabId]⟩ : LayoutGroup)]).filter (·.tabOrder ≠ [])) :
    GroupsSound (fun _ => False) tabIds split
      (some ((pruneGroupLeaves (split.map (·.id))
        (some ((layout.getD (.leaf beside.id)).graft beside.id
          (buildSplitNode runtime beside.id newGroupId side)))).getD (.leaf newGroupId))) := by
  have hbesideId : beside.id ∈ groupIdsOf groups := mem_map.mpr ⟨beside, hbeside, rfl⟩
  have hbase := hsound.tree.getD_leaf hbesideId
  generalize layout.getD (.leaf beside.id) = base at hbase
  have hbaseNodup : base.leaves.Nodup := hbase.nodup_iff.mpr hsound.groupIds
  have hgrafted : (base.graft beside.id
      (buildSplitNode runtime beside.id newGroupId side)).leaves.Perm
        (base.leaves ++ [newGroupId]) :=
    SplitTree.leaves_graft_perm hbaseNodup (hbase.mem_iff.mpr hbesideId)
      (leaves_besideNode runtime side newGroupId (.leaf beside.id))
  generalize base.graft beside.id (buildSplitNode runtime beside.id newGroupId side) =
    grafted at hgrafted ⊢
  have hstripped := hsound.stripped tabId
  have hids : groupIdsOf (groups.map fun group =>
      { group with tabOrder := group.tabOrder.filter (· ≠ tabId) }) = groupIdsOf groups := by
    rw [groupIdsOf, groupIdsOf, map_map]
    rfl
  have hkept : (groups.map fun group =>
      if group.id = source.id then
        { group with tabOrder := source.tabOrder.filter (· ≠ tabId) }
      else group) =
        groups.map fun group => { group with tabOrder := group.tabOrder.filter (· ≠ tabId) } := by
    apply map_congr_left
    intro group hgroup
    by_cases hisSource : group.id = source.id
    · rw [if_pos hisSource, hsound.eq_of_id_eq hgroup hsource hisSource]
    · rw [if_neg hisSource]
      have hother : tabId ∉ group.tabOrder := fun hlists =>
        hisSource (congrArg LayoutGroup.id (hsound.eq_of_listed hgroup hsource hlists htab))
      rw [SplitTree.filter_ne_of_not_mem hother]
  rw [hkept] at hsplit
  generalize groups.map (fun group =>
    { group with tabOrder := group.tabOrder.filter (· ≠ tabId) }) = kept at hstripped hids hsplit
  rw [← hids] at hnew hbase
  have happended := hstripped.appended hnew (hgrafted.trans (hbase.append_right [newGroupId]))
  have hreplaced : replaceKeyed LayoutGroup.id ⟨newGroupId, [tabId]⟩
      (kept ++ [⟨newGroupId, []⟩]) = kept ++ [⟨newGroupId, [tabId]⟩] := by
    rw [replaceKeyed, map_append, ← replaceKeyed, replaceKeyed_of_not_mem LayoutGroup.id hnew]
    congr 1
    exact congrArg (fun group : LayoutGroup => [group]) (if_pos rfl)
  have hgone : tabId ∉ tabIds.filter (· ≠ tabId) := by simp
  have hplaced := happended.place (mem_append_right kept (mem_singleton_self _)) hgone
    (List.Perm.refl [tabId]) fun _ _ _ => trivial
  rw [hreplaced] at hplaced
  have hperm : (tabIds.filter (· ≠ tabId) ++ [tabId]).Perm tabIds :=
    (perm_append_singleton tabId _).trans
      (perm_filter_ne hsound.nodup (hsound.mem_of_listed hsource htab)).symm
  have hpruned := (hplaced.congr hperm).pruned
  rw [← hsplit] at hpruned
  have hsplitId : newGroupId ∈ groupIdsOf split := by
    rw [hsplit]
    exact mem_map.mpr ⟨⟨newGroupId, [tabId]⟩, mem_filter.mpr
      ⟨mem_append_right kept (mem_singleton_self _), by simp⟩, rfl⟩
  exact { hpruned with tree := hpruned.tree.getD_leaf hsplitId }

/-- A tab is split off beside a group. -/
theorem keeps_splitGroup (tabId besideGroupId : String)
    (direction : GroupSide) {context : LayoutContext}
    (hnew : Unused WorkspaceLayout.groupIds edit.model.workspaces (context.mintId 0)) :
    Keeps spare (splitGroup runtime edit workspace key tabId besideGroupId direction context) := by
  have hgroups := (hsound.workspace key workspace hlookup).groups
  rw [splitGroup]
  cases hsource : sourceGroupOf workspace tabId with
  | none => exact keeps_refuse _
  | some source =>
    obtain ⟨hsourceMem, htab⟩ := mem_of_sourceGroupOf hsource
    dsimp only
    cases hbeside : findGroup workspace besideGroupId with
    | none => exact keeps_refuse _
    | some beside =>
      obtain ⟨hbesideMem, hbesideId⟩ := mem_of_findGroup hbeside
      rw [if_neg (by simp)]
      split
      next honly =>
        simp only [Bool.and_eq_true, decide_eq_true_eq] at honly
        have hsourceId : source.id ∈ groupIdsOf workspace.groups :=
          mem_map.mpr ⟨source, hsourceMem, rfl⟩
        have hbesideGroup : besideGroupId ∈ groupIdsOf workspace.groups :=
          mem_map.mpr ⟨beside, hbesideMem, hbesideId⟩
        have hbase := hgroups.tree.getD_leaf hsourceId
        have hmoved := leaves_moveGroupLeafBeside runtime
          (hbase.nodup_iff.mpr hgroups.groupIds) (hbase.mem_iff.mpr hsourceId)
          (hbase.mem_iff.mpr hbesideGroup) honly.2 direction
        refine keeps_regrouped hsound hlookup { hgroups with tree := ?_ }
        exact hmoved.trans hbase
      next =>
        cases hbuilt : buildHeadlessTabGroupSplit runtime workspace tabId besideGroupId
            (context.mintId 0) direction with
        | none => exact keeps_refuse _
        | some split =>
          obtain ⟨listing, hlisting, hrest⟩ := Option.bind_eq_some_iff.mp hbuilt
          rw [groupListing_of_sourceGroupOf hsource, Option.some.injEq] at hlisting
          subst hlisting
          split at hrest
          · cases hrest
          · cases hrest
            rw [← hbesideId]
            refine keeps_regrouped hsound hlookup ((groups_splitOff runtime hgroups
              hsourceMem hbesideMem htab (hnew key workspace hlookup) direction
                rfl).mono fun _ hnone => hnone.elim)

/-! ## Ratios -/

theorem keeps_setGroupRatios (groupLayout : Option (TabGroupLayoutNode P))
    (ratios : Option (List (SplitRatioIntent P))) :
    Keeps spare (setGroupRatios edit workspace key groupLayout ratios) := by
  have hgroups := (hsound.workspace key workspace hlookup).groups
  rw [setGroupRatios]
  cases hresized : resizedGroups workspace groupLayout ratios with
  | none => exact keeps_refuse _
  | some tree =>
    obtain ⟨current, hcurrent, hrest⟩ := Option.bind_eq_some_iff.mp hresized
    have hleaves : tree.leaves = current.leaves := by
      cases ratios with
      | some ratios => exact leaves_withSplitRatios _ _ hrest
      | none =>
        rw [Option.filter_eq_some_iff] at hrest
        exact SplitTree.leaves_of_sameShape hrest.2
    have htree : current.leaves.Perm (groupIdsOf workspace.groups) := by
      have hnames := hgroups.tree
      rw [Option.or_eq_some_iff] at hcurrent
      rcases hcurrent with hlayout | ⟨hlayout, hhead⟩
      · rw [hlayout] at hnames
        exact hnames
      · obtain ⟨group, hgroup, rfl⟩ := Option.map_eq_some_iff.mp hhead
        have hbase := hnames.getD_leaf (mem_map.mpr ⟨group, mem_of_mem_head? hgroup, rfl⟩)
        rw [hlayout] at hbase
        exact hbase
    refine keeps_regrouped hsound hlookup { hgroups with tree := ?_ }
    rw [← hleaves] at htree
    exact htree

end Held

/-! ## Opening into a new group -/

/-- Two edits hold the same tabs and pane data. -/
structure SameTabs (old new : LayoutEdit P) : Prop where
  tabs : ∀ key, (workspaceOrEmpty new key).tabs = (workspaceOrEmpty old key).tabs
  leaves : ∀ key, (workspaceOrEmpty new key).leaves = (workspaceOrEmpty old key).leaves
  legacy : new.model.legacy = old.model.legacy

theorem SameTabs.refl (edit : LayoutEdit P) : SameTabs edit edit :=
  ⟨fun _ => rfl, fun _ => rfl, rfl⟩

namespace SameTabs

variable {edit next : LayoutEdit P} (hsame : SameTabs edit next)

include hsame

theorem unused {idsOf : WorkspaceLayout P → List String} {id : String}
    (htabs : ∀ left right : WorkspaceLayout P, left.tabs = right.tabs → idsOf left = idsOf right)
    (hempty : ∀ key, idsOf (emptyWorkspace key) = [])
    (hunused : Unused idsOf edit.model.workspaces id) :
    Unused idsOf next.model.workspaces id := by
  intro key workspace hlookup
  have hnext : workspaceOrEmpty next key = workspace := workspaceOrEmpty_of_lookup hlookup
  rw [← hnext, htabs _ _ (hsame.tabs key)]
  exact Unused.workspaceOrEmpty hunused (hempty key)

theorem unusedTab {tabId : String}
    (hunused : Unused WorkspaceLayout.tabIds edit.model.workspaces tabId) :
    Unused WorkspaceLayout.tabIds next.model.workspaces tabId := by
  refine hsame.unused (fun left right htabs => ?_) (fun _ => rfl) hunused
  rw [WorkspaceLayout.tabIds, WorkspaceLayout.tabIds, htabs]

theorem unusedPane {paneId : String}
    (hunused : Unused WorkspaceLayout.paneIds edit.model.workspaces paneId) :
    Unused WorkspaceLayout.paneIds next.model.workspaces paneId := by
  refine hsame.unused (fun left right htabs => ?_) (fun _ => rfl) hunused
  rw [WorkspaceLayout.paneIds, WorkspaceLayout.paneIds, htabs]

theorem leaf? (key : String) :
    (workspaceOrEmpty next key).leaf? = (workspaceOrEmpty edit key).leaf? := by
  funext leafId
  rw [WorkspaceLayout.leaf?, WorkspaceLayout.leaf?, hsame.leaves]

theorem terminalFree {leafId : String} {binding : TerminalBinding}
    (hfree : TerminalFree edit.model.workspaces leafId binding) :
    TerminalFree next.model.workspaces leafId binding := by
  intro key workspace other hlookup hother
  have hbinding : workspace.bindingOf other = (workspaceOrEmpty edit key).bindingOf other := by
    rw [← workspaceOrEmpty_of_lookup hlookup, WorkspaceLayout.bindingOf, hsame.leaf? key,
      WorkspaceLayout.bindingOf]
  rw [hbinding]
  cases hold : edit.workspace? key with
  | none =>
    rw [workspaceOrEmpty, hold]
    exact isSameTerminal_unbound_left rfl binding
  | some old =>
    rw [workspaceOrEmpty_of_lookup hold]
    exact hfree key old other hold hother

theorem leafOf (key leafId : String) :
    leafOf (workspaceOrEmpty next key) leafId = leafOf (workspaceOrEmpty edit key) leafId := by
  rw [CommandSteps.leafOf, CommandSteps.leafOf, hsame.leaf? key]

theorem heldPaneOfTerminal (key : String) (adoption : LiveTerminalAdoption) :
    heldPaneOfTerminal (workspaceOrEmpty next key) adoption =
      heldPaneOfTerminal (workspaceOrEmpty edit key) adoption := by
  have hbound : isBoundLeaf (workspaceOrEmpty next key) =
      isBoundLeaf (workspaceOrEmpty edit key) := by
    funext leafId
    rw [isBoundLeaf, isBoundLeaf, hsame.leafOf]
  have hlocate : locatePane (workspaceOrEmpty next key) =
      locatePane (workspaceOrEmpty edit key) := by
    funext paneKey
    rw [locatePane, locatePane, hsame.tabs]
  rw [TabCommands.heldPaneOfTerminal, TabCommands.heldPaneOfTerminal, hsame.tabs, hbound, hlocate]
  simp only [hsame.leafOf]

theorem findTab (key tabId : String) :
    findTab (workspaceOrEmpty next key) tabId = findTab (workspaceOrEmpty edit key) tabId := by
  rw [CommandSteps.findTab, CommandSteps.findTab, hsame.tabs]

theorem admits (key : String) (reason : InitialSurfaceReason) :
    admitsInitialSurface next.model key reason = admitsInitialSurface edit.model key reason := by
  have htabs : ∀ current : LayoutEdit P,
      (current.model.workspaces.lookup key).all (·.tabs.isEmpty) =
        (workspaceOrEmpty current key).tabs.isEmpty := by
    intro current
    rw [workspaceOrEmpty, LayoutEdit.workspace?]
    cases current.model.workspaces.lookup key <;> rfl
  rw [admitsInitialSurface, admitsInitialSurface, htabs, htabs, hsame.tabs, hsame.legacy]

end SameTabs

def openedSpare (key groupId : String) : String → String → Prop :=
  fun other otherId => other = key ∧ otherId = groupId

theorem workspaceOrEmpty_withWorkspace (edit : LayoutEdit P) (key other : String)
    (workspace : WorkspaceLayout P) :
    workspaceOrEmpty (withWorkspace edit key workspace) other =
      if other = key then workspace else workspaceOrEmpty edit other := by
  rw [workspaceOrEmpty, LayoutEdit.workspace?, LayoutEdit.workspaces_withWorkspace,
    OrderedMap.lookup_set]
  by_cases hother : other = key
  · rw [if_pos hother, if_pos hother]
    rfl
  · rw [if_neg hother, if_neg hother]
    rfl

variable (runtime : LayoutRuntime P)

theorem sameTabs_withNewGroup (edit : LayoutEdit P) (key : String)
    (split : NewGroupSplit) (groupId : String) :
    SameTabs edit (withWorkspace edit key
      (withNewGroup runtime (workspaceOrEmpty edit key) split groupId)) := by
  refine ⟨fun other => ?_, fun other => ?_, rfl⟩
  · rw [workspaceOrEmpty_withWorkspace]
    by_cases hother : other = key
    · rw [if_pos hother, hother]
      rfl
    · rw [if_neg hother]
  · rw [workspaceOrEmpty_withWorkspace]
    by_cases hother : other = key
    · rw [if_pos hother, hother]
      rfl
    · rw [if_neg hother]

theorem groups_withNewGroup {spare : String → Prop}
    (hgroups : GroupsSound spare workspace.tabIds workspace.groups workspace.groupLayout)
    {split : NewGroupSplit} {groupId : String} (hnew : findGroup workspace groupId = none)
    (hheld : besideHeld workspace split = true ∨ workspace.groups = [])
    (htree : besideHeld workspace split = true →
      (newGroupTree runtime workspace split groupId).isSome) :
    GroupsSound (fun other => spare other ∨ other = groupId) workspace.tabIds
      (withNewGroup runtime workspace split groupId).groups
      (withNewGroup runtime workspace split groupId).groupLayout := by
  have hnotMem : groupId ∉ groupIdsOf workspace.groups := by
    intro hmem
    obtain ⟨group, hgroup, hid⟩ := mem_map.mp hmem
    have hmiss := find?_eq_none.mp hnew group hgroup
    simp [hid] at hmiss
  rw [withNewGroup]
  by_cases hbeside : besideHeld workspace split = true
  · rw [if_pos hbeside]
    obtain ⟨tree, hmoved⟩ := Option.isSome_iff_exists.mp (htree hbeside)
    rw [hmoved]
    have hbesideMem : split.besideGroupId ∈ groupIdsOf workspace.groups := by
      simp only [besideHeld, all_cons, Bool.and_eq_true] at hbeside
      obtain ⟨group, hgroup⟩ := Option.isSome_iff_exists.mp hbeside.1
      obtain ⟨hmem, hid⟩ := mem_of_findGroup hgroup
      exact mem_map.mpr ⟨group, hmem, hid⟩
    have hbase := hgroups.tree.getD_leaf hbesideMem
    have hleaves := leaves_moveGroupLeafBesideBranch runtime
      (hbase.nodup_iff.mpr hgroups.groupIds) (fun hmem => hnotMem (hbase.mem_iff.mp hmem)) hmoved
    exact hgroups.appended hnotMem (hleaves.trans (hbase.append_right [groupId]))
  · have hnone := hheld.resolve_left hbeside
    rw [if_neg hbeside]
    rw [hnone] at hgroups ⊢
    exact (hgroups.first groupId).mono fun other hother => Or.inr hother

theorem evolves_withNewGroup (workspace : WorkspaceLayout P)
    (split : NewGroupSplit) (groupId : String) :
    Evolves [] [] workspace (withNewGroup runtime workspace split groupId) :=
  ⟨fun _ htab => Or.inl htab, fun _ hpane => Or.inl hpane, fun _ => Or.inl rfl⟩

theorem sound_of_isFilled {groupId : String}
    (hsound : LayoutSound (openedSpare key groupId) edit.model.workspaces)
    (hfilled : isFilled edit key groupId = true) : LayoutSound noSpare edit.model.workspaces := by
  obtain ⟨filled, hlookup, hgroup⟩ := (Option.any_eq_true _ _).mp hfilled
  rw [any_eq_true] at hgroup
  obtain ⟨held, hheld, hid⟩ := hgroup
  rw [Bool.and_eq_true, decide_eq_true_eq, decide_eq_true_eq] at hid
  refine ⟨fun other workspace hother => ?_, hsound.tabs, hsound.panes, hsound.terminals⟩
  obtain ⟨hgroups, hpanes⟩ := hsound.workspace other workspace hother
  refine ⟨{ hgroups with filled := fun group hmem hempty => ?_ }, hpanes⟩
  obtain ⟨hkey, hgroupId⟩ := hgroups.filled group hmem hempty
  rw [hkey] at hother
  have hsame : workspace = filled := Option.some.inj (hother.symm.trans hlookup)
  rw [hsame] at hmem hgroups
  have heq := hgroups.eq_of_id_eq hmem hheld (hgroupId.trans hid.1.symm)
  rw [heq] at hempty
  exact hid.2 hempty

/-- A command that opens a tab is run where the new group stands ready; what it
leaves is sound once that group is filled. -/
theorem keeps_openInNewGroup
    (hsound : LayoutSound noSpare edit.model.workspaces) (command : NewGroupOpen)
    {openTab : LayoutEdit P → Applied P}
    (hopen : ∀ (spare : String → String → Prop) (next : LayoutEdit P), SameTabs edit next →
      LayoutSound spare next.model.workspaces → Keeps spare (openTab next)) :
    Keeps noSpare (openInNewGroup runtime edit command openTab) := by
  have hplain : Keeps noSpare (openTab edit) := hopen noSpare edit (SameTabs.refl edit) hsound
  rw [openInNewGroup]
  cases command.split with
  | none => exact hplain
  | some split =>
    dsimp only
    split
    · exact hplain
    cases hgroupId : given command.groupId with
    | none => exact keeps_refuse _
    | some groupId =>
      dsimp only
      split
      · exact hplain
      next hown =>
        split
        · exact keeps_refuse _
        split
        · exact keeps_refuse _
        next hknown =>
          split
          · exact keeps_refuse _
          next hplace =>
            generalize hkey : command.workspace = key at *
            have hworkspace := sound_workspaceOrEmpty hsound key
            have hnone : findGroup (workspaceOrEmpty edit key) groupId = none := by
              simpa using hown
            have hgroups := groups_withNewGroup runtime hworkspace.groups hnone
              (by simpa [or_iff_not_imp_left] using hknown)
              (by simpa [Option.isSome_iff_ne_none] using hplace)
            have hready : LayoutSound (openedSpare key groupId) (withWorkspace edit key
                (withNewGroup runtime (workspaceOrEmpty edit key) split
                  groupId)).model.workspaces := by
              refine hsound.set rfl ⟨hgroups.mono ?_, hworkspace.panes⟩
                (fun _ _ _ hnone => hnone.elim)
                ((evolves_withNewGroup runtime _ split groupId).replaces
                  (fun _ htab => absurd htab not_mem_nil)
                  (fun _ hpane => absurd hpane not_mem_nil) "")
              intro other hother
              exact ⟨rfl, hother.resolve_left id⟩
            have hopened := hopen (openedSpare key groupId) _
              (sameTabs_withNewGroup runtime edit key split groupId) hready
            cases hresult : openTab (withWorkspace edit key
                (withNewGroup runtime (workspaceOrEmpty edit key) split groupId)) with
            | error code => exact keeps_refuse _
            | ok opened =>
              dsimp only
              split
              next hfilled =>
                intro next hnext
                rw [← Except.ok.inj hnext]
                exact sound_of_isFilled (hopened opened hresult) hfilled
              next => exact keeps_applied hsound

end Wakii.GroupCommandsSound
