import Mathlib.Data.List.Perm.Subperm
import Wakii.Layout.GroupSound

/-!
# Sound layouts

What every command keeps: in each workspace the groups order the tabs and the
pane data is that of the panes; across workspaces no tab, pane or terminal
occurs twice.  A sound layout is one without breaches whose group ids are
distinct.
-/

namespace Wakii.LayoutSoundness

open List OrderedCollections SplitTrees OrderedMap
open Wakii.CommandSteps Wakii.GroupSound Wakii.LayoutModel Wakii.ModelRules
open Wakii.TerminalOwners

variable {P : Type}

/-! ## Workspaces -/

/-- The data is that of held panes, and no leaf is both slept and resumed. -/
structure PanesSound (paneIds : List String) (leaf? : String → Option (LayoutLeaf P)) : Prop where
  nodup : paneIds.Nodup
  held : ∀ leafId leaf, leaf? leafId = some leaf → leafId ∈ paneIds
  single : ∀ leafId leaf, leaf? leafId = some leaf →
    (leaf.sleeping.isSome && leaf.resume.isSome) = false

structure WorkspaceSound (spare : String → Prop) (workspace : WorkspaceLayout P) : Prop where
  groups : GroupsSound spare workspace.tabIds workspace.groups workspace.groupLayout
  panes : PanesSound workspace.paneIds workspace.leaf?

theorem PanesSound.congr {paneIds paneIds' : List String}
    {leaf? : String → Option (LayoutLeaf P)} (hsound : PanesSound paneIds leaf?)
    (hperm : paneIds.Perm paneIds') : PanesSound paneIds' leaf? :=
  ⟨hperm.nodup_iff.mp hsound.nodup,
    fun leafId leaf hleaf => hperm.mem_iff.mp (hsound.held leafId leaf hleaf), hsound.single⟩

variable {workspace : WorkspaceLayout P}

theorem bindingOf_unbound {leafId : String}
    (hleaf : workspace.leaf? leafId = none) : workspace.bindingOf leafId = unbound := by
  rw [WorkspaceLayout.bindingOf, hleaf]
  rfl

theorem bindingOf_eq_binding (workspace : WorkspaceLayout P) (leafId : String) :
    workspace.bindingOf leafId = (leafOf workspace leafId).binding := by
  rw [WorkspaceLayout.bindingOf, leafOf]
  cases workspace.leaf? leafId <;> rfl

theorem WorkspaceSound.tab_eq {spare : String → Prop}
    (hsound : WorkspaceSound spare workspace) {left right : LayoutTab P}
    (hleft : left ∈ workspace.tabs) (hright : right ∈ workspace.tabs)
    (hid : left.id = right.id) : left = right :=
  inj_on_of_nodup_map hsound.groups.nodup hleft hright hid

theorem emptyWorkspace_sound (spare : String → Prop) (key : String) :
    WorkspaceSound spare (emptyWorkspace key : WorkspaceLayout P) where
  groups :=
    { nodup := nodup_nil
      listed := List.Perm.refl _
      filled := fun _ hgroup => absurd hgroup not_mem_nil
      groupIds := nodup_nil
      tree := Nat.zero_le 1 }
  panes :=
    { nodup := nodup_nil
      held := fun _ _ hleaf => by cases hleaf
      single := fun _ _ hleaf => by cases hleaf }

/-! ## Layouts -/

abbrev Workspaces (P : Type) := OrderedMap String (WorkspaceLayout P)

def TerminalsApart (workspaces : Workspaces P) : Prop :=
  ∀ key key' workspace workspace' leafId leafId', workspaces.lookup key = some workspace →
    workspaces.lookup key' = some workspace' → leafId ≠ leafId' →
      isSameTerminal (workspace.bindingOf leafId) (workspace'.bindingOf leafId') = false

def IdsApart (idsOf : WorkspaceLayout P → List String) (workspaces : Workspaces P) : Prop :=
  ∀ key key' workspace workspace', key ≠ key' → workspaces.lookup key = some workspace →
    workspaces.lookup key' = some workspace' →
      ∀ id ∈ idsOf workspace, ∀ id' ∈ idsOf workspace', id ≠ id'

def Unused (idsOf : WorkspaceLayout P → List String) (workspaces : Workspaces P) (id : String) :
    Prop :=
  ∀ key workspace, workspaces.lookup key = some workspace → id ∉ idsOf workspace

def TerminalFree (workspaces : Workspaces P) (leafId : String) (binding : TerminalBinding) :
    Prop :=
  ∀ key workspace other, workspaces.lookup key = some workspace → other ≠ leafId →
    isSameTerminal (workspace.bindingOf other) binding = false

/-- `spare key` are the groups of a workspace that may stand empty. -/
structure LayoutSound (spare : String → String → Prop) (workspaces : Workspaces P) : Prop where
  workspace : ∀ key workspace, workspaces.lookup key = some workspace →
    WorkspaceSound (spare key) workspace
  tabs : IdsApart WorkspaceLayout.tabIds workspaces
  panes : IdsApart WorkspaceLayout.paneIds workspaces
  terminals : TerminalsApart workspaces

def noSpare : String → String → Prop := fun _ _ => False

/-! ## The check and soundness -/

/-- In every workspace the group ids, and the leaves of the group tree, are
distinct. -/
def GroupsDistinct (model : WorkspaceLayoutModel P) : Prop :=
  ∀ key workspace, model.workspaces.lookup key = some workspace →
    workspace.groupIds.Nodup ∧ (SplitTree.leavesOf workspace.groupLayout).Nodup

theorem map_leafId_workspaceOwners (hostId : String) (workspace : WorkspaceLayout P) :
    (workspaceOwners hostId workspace).map (·.leafId) = workspace.paneIds := by
  simp [workspaceOwners, WorkspaceLayout.paneIds, map_flatMap, Function.comp_def]

theorem map_leafId_paneOwners (model : WorkspaceLayoutModel P) : (paneOwners model).map (·.leafId) =
      model.workspaces.values.flatMap WorkspaceLayout.paneIds := by
  rw [paneOwners, map_flatMap]
  exact flatMap_congr fun workspace _ => map_leafId_workspaceOwners model.hostId workspace

variable {model : WorkspaceLayoutModel P}

theorem exists_owner (hworkspace : workspace ∈ model.workspaces.values) {leafId : String}
    (hleaf : leafId ∈ workspace.paneIds) :
    ∃ owner ∈ paneOwners model, owner.leafId = leafId ∧
      owner.binding = workspace.bindingOf leafId := by
  obtain ⟨tab, htab, hpane⟩ := mem_flatMap.mp hleaf
  refine ⟨⟨model.hostId, workspace.worktreeId, tab.entityId, leafId,
    workspace.bindingOf leafId⟩, mem_flatMap.mpr ⟨workspace, hworkspace, ?_⟩, rfl, rfl⟩
  exact mem_flatMap.mpr ⟨tab, htab, mem_map.mpr ⟨leafId, hpane, rfl⟩⟩

theorem owner_cases {owner : PaneOwner} (howner : owner ∈ paneOwners model) :
    ∃ key workspace, model.workspaces.lookup key = some workspace ∧
      owner.binding = workspace.bindingOf owner.leafId := by
  obtain ⟨workspace, hworkspace, hmem⟩ := mem_flatMap.mp howner
  obtain ⟨key, hlookup⟩ := mem_values.mp hworkspace
  obtain ⟨tab, _, hpane⟩ := mem_flatMap.mp hmem
  obtain ⟨leafId, _, rfl⟩ := mem_map.mp hpane
  exact ⟨key, workspace, hlookup, rfl⟩

theorem pairwise_apart_iff {owners : List PaneOwner} :
    owners.Pairwise Apart ↔ (owners.map (·.leafId)).Nodup ∧
      ∀ left ∈ owners, ∀ right ∈ owners, left.leafId ≠ right.leafId →
        isSameTerminal left.binding right.binding = false := by
  rw [List.Nodup, pairwise_map]
  constructor
  · intro hapart
    refine ⟨hapart.imp fun hpair => hpair.1, fun left hleft right hright hleaf => ?_⟩
    have hsymmetric : Std.Symm Apart := ⟨fun _ _ => Apart.symm⟩
    exact (hapart.forall hleft hright fun heq => hleaf (congrArg PaneOwner.leafId heq)).2
  · rintro ⟨hleaf, hterminals⟩
    exact hleaf.imp_of_mem fun hleft hright hdiffer =>
      ⟨hdiffer, hterminals _ hleft _ hright hdiffer⟩

theorem nodup_flatMap_values (idsOf : WorkspaceLayout P → List String) (workspaces : Workspaces P) :
    (workspaces.values.flatMap idsOf).Nodup ↔
      (∀ key workspace, workspaces.lookup key = some workspace → (idsOf workspace).Nodup) ∧
        IdsApart idsOf workspaces :=
  pairwise_flatMap_values (fun _ _ => Ne.symm) idsOf workspaces

/-- A tree passes the check of the groups exactly when it names them, where
neither repeats. -/
theorem treeMatches_iff (hgroups : workspace.groupIds.Nodup)
    (hleaves : (SplitTree.leavesOf workspace.groupLayout).Nodup) :
    treeMatches workspace = true ↔ TreeNames workspace.groupLayout workspace.groupIds := by
  rw [treeMatches]
  cases hlayout : workspace.groupLayout with
  | none => simp [TreeNames]
  | some tree =>
    rw [hlayout, SplitTree.leavesOf_some] at hleaves
    simp only [Bool.and_eq_true, decide_eq_true_eq, TreeNames]
    constructor
    · rintro ⟨hlength, hunion⟩
      have hsubset : workspace.groupIds ⊆ (tree.leaves ++ workspace.groupIds).dedup :=
        fun groupId hgroup => mem_dedup.mpr (mem_append_right _ hgroup)
      have hunionPerm : workspace.groupIds.Perm (tree.leaves ++ workspace.groupIds).dedup :=
        (subperm_of_subset hgroups hsubset).perm_of_length_le hunion.le
      have hleavesSubset : tree.leaves ⊆ workspace.groupIds := fun groupId hgroup =>
        hunionPerm.mem_iff.mpr (mem_dedup.mpr (mem_append_left _ hgroup))
      exact (subperm_of_subset hleaves hleavesSubset).perm_of_length_le hlength.ge
    · intro hperm
      refine ⟨hperm.length_eq, ?_⟩
      have hdedup : (tree.leaves ++ workspace.groupIds).dedup.Perm workspace.groupIds := by
        apply (perm_ext_iff_of_nodup (nodup_dedup _) hgroups).mpr
        intro groupId
        rw [mem_dedup, mem_append, hperm.mem_iff, or_self]
      exact hdedup.length_eq

theorem listed_perm_iff (htabs : workspace.tabIds.Nodup) : workspace.listed.Perm workspace.tabIds ↔
      (∀ tabId ∈ workspace.listed, tabId ∈ workspace.tabIds) ∧
        ∀ tabId ∈ workspace.tabIds, workspace.listed.count tabId = 1 := by
  constructor
  · intro hperm
    refine ⟨fun tabId htab => hperm.mem_iff.mp htab, fun tabId htab => ?_⟩
    rw [hperm.count_eq, count_eq_one_of_mem htabs htab]
  · rintro ⟨hknown, honce⟩
    rw [perm_iff_count]
    intro tabId
    by_cases htab : tabId ∈ workspace.tabIds
    · rw [honce tabId htab, count_eq_one_of_mem htabs htab]
    · rw [count_eq_zero_of_not_mem htab,
        count_eq_zero_of_not_mem fun hlisted => htab (hknown tabId hlisted)]

theorem sound_of_breachFree (hfree : BreachFree model)
    (hdistinct : GroupsDistinct model) : LayoutSound noSpare model.workspaces := by
  obtain ⟨hpanes, hterminals⟩ := pairwise_apart_iff.mp hfree.panes
  rw [map_leafId_paneOwners, nodup_flatMap_values] at hpanes
  have htabs := (nodup_flatMap_values WorkspaceLayout.tabIds model.workspaces).mp hfree.tabs
  refine ⟨fun key workspace hlookup => ?_, htabs.2, hpanes.2, ?_⟩
  · have hmem : workspace ∈ model.workspaces.values := mem_values.mpr ⟨key, hlookup⟩
    have hworkspace := hfree.workspaces workspace hmem
    obtain ⟨hgroups, hleaves⟩ := hdistinct key workspace hlookup
    have hnodup := htabs.1 key workspace hlookup
    exact {
      groups :=
        { nodup := hnodup
          listed := (listed_perm_iff hnodup).mpr ⟨hworkspace.known, hworkspace.once⟩
          filled := fun group hgroup => hworkspace.filled group hgroup
          groupIds := hgroups
          tree := (treeMatches_iff hgroups hleaves).mp hworkspace.tree }
      panes := ⟨hpanes.1 key workspace hlookup, hworkspace.held, hworkspace.single⟩ }
  · intro key key' workspace workspace' leafId leafId' hlookup hlookup' hleaf
    have hmem : workspace ∈ model.workspaces.values := mem_values.mpr ⟨key, hlookup⟩
    have hmem' : workspace' ∈ model.workspaces.values := mem_values.mpr ⟨key', hlookup'⟩
    by_cases hpane : leafId ∈ workspace.paneIds
    · by_cases hpane' : leafId' ∈ workspace'.paneIds
      · obtain ⟨left, hleft, hleftId, hleftBinding⟩ := exists_owner hmem hpane
        obtain ⟨right, hright, hrightId, hrightBinding⟩ := exists_owner hmem' hpane'
        rw [← hleftBinding, ← hrightBinding]
        exact hterminals left hleft right hright (by rw [hleftId, hrightId]; exact hleaf)
      · have hnone : workspace'.leaf? leafId' = none := Option.eq_none_iff_forall_ne_some.mpr
          fun leaf hsome => hpane' ((hfree.workspaces workspace' hmem').held leafId' leaf hsome)
        rw [bindingOf_unbound hnone]
        exact isSameTerminal_unbound_right rfl _
    · have hnone : workspace.leaf? leafId = none := Option.eq_none_iff_forall_ne_some.mpr
        fun leaf hsome => hpane ((hfree.workspaces workspace hmem).held leafId leaf hsome)
      rw [bindingOf_unbound hnone]
      exact isSameTerminal_unbound_left rfl _

theorem breachFree_of_sound (hsound : LayoutSound noSpare model.workspaces) : BreachFree model := by
  refine ⟨pairwise_apart_iff.mpr ⟨?_, ?_⟩, ?_, ?_⟩
  · rw [map_leafId_paneOwners, nodup_flatMap_values]
    exact ⟨fun key workspace hlookup => (hsound.workspace key workspace hlookup).panes.nodup,
      hsound.panes⟩
  · intro left hleft right hright hleaf
    obtain ⟨key, workspace, hlookup, hbinding⟩ := owner_cases hleft
    obtain ⟨key', workspace', hlookup', hbinding'⟩ := owner_cases hright
    rw [hbinding, hbinding']
    exact hsound.terminals key key' workspace workspace' _ _ hlookup hlookup' hleaf
  · rw [nodup_flatMap_values]
    exact ⟨fun key workspace hlookup => (hsound.workspace key workspace hlookup).groups.nodup,
      hsound.tabs⟩
  · intro workspace hmem
    obtain ⟨key, hlookup⟩ := mem_values.mp hmem
    obtain ⟨hgroups, hpanes⟩ := hsound.workspace key workspace hlookup
    have hlisted := (listed_perm_iff hgroups.nodup).mp hgroups.listed
    refine ⟨hgroups.filled, hlisted.1, hlisted.2, ?_, hpanes.held, hpanes.single⟩
    apply (treeMatches_iff hgroups.groupIds ?_).mpr hgroups.tree
    have htree := hgroups.tree
    cases hlayout : workspace.groupLayout with
    | none => exact nodup_nil
    | some tree =>
      rw [hlayout] at htree
      exact (Perm.nodup_iff htree).mpr hgroups.groupIds

theorem groupsDistinct_of_sound {spare : String → String → Prop}
     (hsound : LayoutSound spare model.workspaces) :
    GroupsDistinct model := by
  intro key workspace hlookup
  have hgroups := (hsound.workspace key workspace hlookup).groups
  refine ⟨hgroups.groupIds, ?_⟩
  have htree := hgroups.tree
  cases hlayout : workspace.groupLayout with
  | none => exact nodup_nil
  | some tree =>
    rw [hlayout] at htree
    exact (Perm.nodup_iff htree).mpr hgroups.groupIds

theorem sound_iff (model : WorkspaceLayoutModel P) : LayoutSound noSpare model.workspaces ↔
      checkWorkspaceLayoutModelRules [model] = [] ∧ GroupsDistinct model := by
  rw [checkWorkspaceLayoutModelRules_single]
  exact ⟨fun hsound => ⟨breachFree_of_sound hsound, groupsDistinct_of_sound hsound⟩,
    fun hchecked => sound_of_breachFree hchecked.1 hchecked.2⟩

/-! ## Writing a workspace -/

/-- A workspace written in the place of another: tabs and panes are its own or
new, and one pane at most is bound anew. -/
structure Replaces (workspaces : Workspaces P) (old new : WorkspaceLayout P) (bound : String) :
    Prop where
  tabs : ∀ tabId ∈ new.tabIds, tabId ∈ old.tabIds ∨ Unused WorkspaceLayout.tabIds workspaces tabId
  panes : ∀ paneId ∈ new.paneIds,
    paneId ∈ old.paneIds ∨ Unused WorkspaceLayout.paneIds workspaces paneId
  others : ∀ leafId, leafId ≠ bound →
    new.bindingOf leafId = old.bindingOf leafId ∨ (new.bindingOf leafId).ptyId = none
  binding : new.bindingOf bound = old.bindingOf bound ∨ (new.bindingOf bound).ptyId = none ∨
    TerminalFree workspaces bound (new.bindingOf bound)

namespace LayoutSound

variable {spare : String → String → Prop} {workspaces : Workspaces P}

theorem getD (hsound : LayoutSound spare workspaces) (key : String) :
    WorkspaceSound (spare key) ((workspaces.lookup key).getD (emptyWorkspace key)) := by
  cases hlookup : workspaces.lookup key with
  | none => exact emptyWorkspace_sound _ _
  | some workspace => exact hsound.workspace key workspace hlookup

private theorem idsApart_set {idsOf : WorkspaceLayout P → List String}
    (hapart : IdsApart idsOf workspaces) {key : String} {old new : WorkspaceLayout P}
    (hold : workspaces.lookup key = some old ∨ idsOf old = [])
    (hids : ∀ id ∈ idsOf new, id ∈ idsOf old ∨ Unused idsOf workspaces id) :
    IdsApart idsOf (workspaces.set key new) := by
  have hnew : ∀ other workspace, other ≠ key → workspaces.lookup other = some workspace →
      ∀ id ∈ idsOf new, ∀ id' ∈ idsOf workspace, id ≠ id' := by
    rintro other workspace hother hlookup id hid id' hid' rfl
    rcases hids id hid with hmem | hunused
    · rcases hold with hold | hempty
      · exact hapart key other old workspace hother.symm hold hlookup id hmem id hid' rfl
      · rw [hempty] at hmem
        cases hmem
    · exact hunused other workspace hlookup hid'
  intro left right workspace workspace' hdiffer hlookup hlookup' id hid id' hid'
  rw [lookup_set] at hlookup hlookup'
  by_cases hleft : left = key
  · have hright : right ≠ key := fun hright => hdiffer (hleft.trans hright.symm)
    rw [if_pos hleft, Option.some.injEq] at hlookup
    rw [if_neg hright] at hlookup'
    subst hlookup
    exact hnew right workspace' hright hlookup' id hid id' hid'
  · rw [if_neg hleft] at hlookup
    by_cases hright : right = key
    · rw [if_pos hright, Option.some.injEq] at hlookup'
      subst hlookup'
      exact (hnew left workspace hleft hlookup id' hid' id hid).symm
    · rw [if_neg hright] at hlookup'
      exact hapart left right workspace workspace' hdiffer hlookup hlookup' id hid id' hid'

/-- A workspace may be set to one that replaces what it showed. -/
theorem set (hsound : LayoutSound spare workspaces) {key : String}
    {old new : WorkspaceLayout P}
    (hold : (workspaces.lookup key).getD (emptyWorkspace key) = old)
    {spare' : String → String → Prop} (hnew : WorkspaceSound (spare' key) new)
    (hspare : ∀ other, other ≠ key → ∀ groupId, spare other groupId → spare' other groupId)
    {bound : String} (hreplaces : Replaces workspaces old new bound) :
    LayoutSound spare' (workspaces.set key new) := by
  have holdCases : workspaces.lookup key = some old ∨
      (workspaces.lookup key = none ∧ old = emptyWorkspace key) := by
    cases hlookup : workspaces.lookup key with
    | none => exact Or.inr ⟨rfl, by rw [← hold, hlookup]; rfl⟩
    | some workspace => exact Or.inl (by rw [← hold, hlookup]; rfl)
  -- A pane of the new workspace that is bound shows what it showed, or a free terminal.
  have hbinding : ∀ leafId, (new.bindingOf leafId).ptyId = none ∨
      new.bindingOf leafId = old.bindingOf leafId ∨
        (leafId = bound ∧ TerminalFree workspaces leafId (new.bindingOf leafId)) := by
    intro leafId
    by_cases hbound : leafId = bound
    · subst hbound
      rcases hreplaces.binding with hkept | hnone | hfree
      · exact Or.inr (Or.inl hkept)
      · exact Or.inl hnone
      · exact Or.inr (Or.inr ⟨rfl, hfree⟩)
    · rcases hreplaces.others leafId hbound with hkept | hnone
      · exact Or.inr (Or.inl hkept)
      · exact Or.inl hnone
  have holdApart : ∀ other workspace leafId leafId', workspaces.lookup other = some workspace →
      leafId ≠ leafId' →
        isSameTerminal (old.bindingOf leafId) (workspace.bindingOf leafId') = false := by
    intro other workspace leafId leafId' hlookup hleaf
    rcases holdCases with hlookupOld | ⟨_, rfl⟩
    · exact hsound.terminals key other old workspace leafId leafId' hlookupOld hlookup hleaf
    · exact isSameTerminal_unbound_left rfl _
  have hnewApart : ∀ other workspace leafId leafId', workspaces.lookup other = some workspace →
      leafId ≠ leafId' →
        isSameTerminal (new.bindingOf leafId) (workspace.bindingOf leafId') = false := by
    intro other workspace leafId leafId' hlookup hleaf
    rcases hbinding leafId with hnone | hkept | ⟨_, hfree⟩
    · exact isSameTerminal_unbound_left hnone _
    · rw [hkept]
      exact holdApart other workspace leafId leafId' hlookup hleaf
    · rw [isSameTerminal_comm]
      exact hfree other workspace leafId' hlookup hleaf.symm
  have holdSelf : ∀ leafId leafId', leafId ≠ leafId' →
      isSameTerminal (old.bindingOf leafId) (old.bindingOf leafId') = false := by
    intro leafId leafId' hleaf
    rcases holdCases with hlookupOld | ⟨_, rfl⟩
    · exact hsound.terminals key key old old leafId leafId' hlookupOld hlookupOld hleaf
    · exact isSameTerminal_unbound_left rfl _
  have hfreeOld : ∀ leafId leafId', leafId ≠ leafId' → ∀ binding,
      TerminalFree workspaces leafId binding →
        isSameTerminal (old.bindingOf leafId') binding = false := by
    intro leafId leafId' hleaf binding hfree
    rcases holdCases with hlookupOld | ⟨_, rfl⟩
    · exact hfree key old leafId' hlookupOld hleaf.symm
    · exact isSameTerminal_unbound_left rfl _
  have hnewSelf : ∀ leafId leafId', leafId ≠ leafId' →
      isSameTerminal (new.bindingOf leafId) (new.bindingOf leafId') = false := by
    intro leafId leafId' hleaf
    rcases hbinding leafId with hnone | hkept | ⟨hbound, hfree⟩
    · exact isSameTerminal_unbound_left hnone _
    · rcases hbinding leafId' with hnone' | hkept' | ⟨_, hfree'⟩
      · exact isSameTerminal_unbound_right hnone' _
      · rw [hkept, hkept']
        exact holdSelf leafId leafId' hleaf
      · rw [hkept]
        exact hfreeOld leafId' leafId hleaf.symm _ hfree'
    · rcases hbinding leafId' with hnone' | hkept' | ⟨hbound', _⟩
      · exact isSameTerminal_unbound_right hnone' _
      · rw [hkept', isSameTerminal_comm]
        exact hfreeOld leafId leafId' hleaf _ hfree
      · exact absurd (hbound.trans hbound'.symm) hleaf
  refine ⟨?_, ?_, ?_, ?_⟩
  · intro other workspace hlookup
    rw [lookup_set] at hlookup
    by_cases hother : other = key
    · rw [if_pos hother, Option.some.injEq] at hlookup
      subst hother hlookup
      exact hnew
    · rw [if_neg hother] at hlookup
      have hworkspace := hsound.workspace other workspace hlookup
      exact ⟨hworkspace.groups.mono (hspare other hother), hworkspace.panes⟩
  · refine idsApart_set hsound.tabs (holdCases.imp id fun hcase => ?_) hreplaces.tabs
    rw [hcase.2]
    rfl
  · refine idsApart_set hsound.panes (holdCases.imp id fun hcase => ?_) hreplaces.panes
    rw [hcase.2]
    rfl
  · intro left right workspace workspace' leafId leafId' hlookup hlookup' hleaf
    rw [lookup_set] at hlookup hlookup'
    by_cases hleft : left = key
    · rw [if_pos hleft, Option.some.injEq] at hlookup
      subst hlookup
      by_cases hright : right = key
      · rw [if_pos hright, Option.some.injEq] at hlookup'
        subst hlookup'
        exact hnewSelf leafId leafId' hleaf
      · rw [if_neg hright] at hlookup'
        exact hnewApart right workspace' leafId leafId' hlookup' hleaf
    · rw [if_neg hleft] at hlookup
      by_cases hright : right = key
      · rw [if_pos hright, Option.some.injEq] at hlookup'
        subst hlookup'
        rw [isSameTerminal_comm]
        exact hnewApart left workspace leafId' leafId hlookup hleaf.symm
      · rw [if_neg hright] at hlookup'
        exact hsound.terminals left right workspace workspace' leafId leafId' hlookup hlookup' hleaf

end LayoutSound

end Wakii.LayoutSoundness
