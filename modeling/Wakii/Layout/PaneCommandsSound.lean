import Wakii.Layout.PaneCommands
import Wakii.Layout.TabCommandsSound

/-!
# Commands on panes keep a layout sound

A pane that moves keeps its id and its data, so only a split needs a new id.
-/

namespace Wakii.PaneCommandsSound

open Option List KeyedLists SplitTrees SplitTree
open Wakii.CommandSteps Wakii.CommandTypes Wakii.LayoutModel
open Wakii.LayoutSoundness Wakii.LayoutTrees Wakii.PaneCommands Wakii.StepsSound
open Wakii.TabCommandsSound

variable {P : Type} {spare : String → String → Prop} {edit : LayoutEdit P} {key : String}
  {workspace : WorkspaceLayout P}

@[simp]
theorem id_withRoot (tab : LayoutTerminalTab P) (root : Option (TerminalPaneLayoutNode P)) :
    (withRoot tab root).id = tab.id := rfl

@[simp]
theorem paneIds_withRoot (tab : LayoutTerminalTab P) (root : Option (TerminalPaneLayoutNode P)) :
    (withRoot tab root).paneIds = SplitTree.leavesOf root := rfl

theorem leafIds_nodup {spare : String → Prop} (hsound : WorkspaceSound spare workspace)
    {tab : LayoutTerminalTab P} (htab : LayoutTab.terminal tab ∈ workspace.tabs) :
    (leafIdsOf tab).Nodup :=
  (nodup_append.mp ((paneIds_perm hsound htab).nodup_iff.mp hsound.panes.nodup)).1

section Held

variable (hsound : LayoutSound spare edit.model.workspaces)
  (hlookup : edit.workspace? key = some workspace)

include hsound hlookup

/-! ## Trees -/

theorem keeps_withRoot {tab : LayoutTerminalTab P} (htab : LayoutTab.terminal tab ∈ workspace.tabs)
    {root : Option (TerminalPaneLayoutNode P)}
    (hroot : (SplitTree.leavesOf root).Perm (leafIdsOf tab)) :
    Keeps spare (updateTab edit key workspace (withRoot tab root)) := by
  refine keeps_evolved hsound hlookup ?_
  have hpanes : (withRoot tab root).paneIds.Perm ((LayoutTab.terminal tab).paneIds ++ []) := by
    rw [append_nil]
    exact hroot
  exact sound_replaceTab (hsound.workspace key workspace hlookup) htab (id_withRoot tab root)
    hpanes nodup_nil fun _ hpane => absurd hpane not_mem_nil

/-- A pane is split in two, the new one unused before. -/
theorem keeps_splitPane (tabId leafId : String) (direction : TerminalPaneSplitDirection)
    (ratio : Option P) {newLeafId : Option String} {context : LayoutContext}
    (hnew : Unused WorkspaceLayout.paneIds edit.model.workspaces
      (newLeafId.getD (context.mintLeafId 0))) :
    Keeps spare (splitPane edit workspace key tabId leafId direction ratio newLeafId context) := by
  rw [splitPane]
  cases htab : paneTab workspace tabId with
  | none => exact keeps_refuse _
  | some tab =>
    obtain ⟨hmem, hroot⟩ := mem_of_paneTab htab
    obtain ⟨root, hroot⟩ := isSome_iff_exists.mp hroot
    have hworkspace := hsound.workspace key workspace hlookup
    dsimp only
    split
    · exact keeps_refuse _
    next hheld =>
      generalize newLeafId.getD (context.mintLeafId 0) = added at hnew ⊢
      have hleaf : leafId ∈ root.leaves := by
        rw [Bool.not_eq_true', Bool.not_eq_false, hroot] at hheld
        exact mem_leavesOf_of_contains hheld
      have hleaves : leafIdsOf tab = root.leaves := by
        rw [leafIdsOf, hroot]
        rfl
      have hnodup := leafIds_nodup hworkspace hmem
      rw [hleaves] at hnodup
      rw [hroot, map_some]
      have hpanes : (withRoot tab (some (insertLeafBeside root leafId added
          (if direction = .vertical then .right else .bottom) ratio))).paneIds.Perm
            ((LayoutTab.terminal tab).paneIds ++ [added]) := by
        rw [paneIds_withRoot, leavesOf_some]
        have hown : (LayoutTab.terminal tab).paneIds = root.leaves := hleaves
        rw [hown]
        exact leaves_insertLeafBeside hnodup hleaf added _ ratio
      have hunused : ∀ paneId ∈ [added],
          Unused WorkspaceLayout.paneIds edit.model.workspaces paneId := by
        intro paneId hpane
        rw [mem_singleton.mp hpane]
        exact hnew
      refine keeps_gained hsound hlookup (sound_replaceTab hworkspace hmem (id_withRoot tab _)
        hpanes (nodup_singleton added) fun paneId hpane => ?_)
        (fun _ htab => absurd htab not_mem_nil) hunused
      exact hunused paneId hpane key workspace hlookup

theorem keeps_closePane (tabId leafId : String) (userPaneClose : Bool) :
    Keeps spare (closePane edit workspace key tabId leafId userPaneClose) := by
  rw [closePane]
  cases htab : (findTerminal workspace tabId).filter fun tab =>
      layoutContainsLeafId tab.panes.root leafId with
  | none => exact keeps_applied hsound
  | some tab =>
    rw [filter_eq_some_iff] at htab
    dsimp only
    split
    · exact keeps_refuse _
    · exact keeps_evolved hsound hlookup (sound_retirePane
        (hsound.workspace key workspace hlookup) (mem_of_findTerminal htab.1).1
        (mem_leavesOf_of_contains htab.2))

theorem keeps_movePane (tabId leafId targetLeafId : String) (side : PaneSide) :
    Keeps spare (movePane edit workspace key tabId leafId targetLeafId side) := by
  rw [movePane]
  by_cases hsame : leafId = targetLeafId
  · rw [if_pos hsame]
    exact keeps_refuse _
  rw [if_neg hsame]
  cases htab : paneTab workspace tabId with
  | none => exact keeps_refuse _
  | some tab =>
    have hmem := (mem_of_paneTab htab).1
    dsimp only
    split
    · exact keeps_refuse _
    next hheld =>
      simp only [Bool.or_eq_true, Bool.not_eq_true', not_or, Bool.not_eq_false] at hheld
      have hleaf : leafId ∈ leafIdsOf tab := mem_leavesOf_of_contains hheld.1
      have htarget : targetLeafId ∈ leafIdsOf tab := mem_leavesOf_of_contains hheld.2
      have hnodup := leafIds_nodup (hsound.workspace key workspace hlookup) hmem
      have hremoved := leavesOf_removeLayoutLeaf tab.panes.root leafId
      have hkept : targetLeafId ∈ SplitTree.leavesOf (removeLayoutLeaf tab.panes.root leafId) := by
        rw [hremoved]
        exact mem_filter.mpr ⟨htarget, by simpa using Ne.symm hsame⟩
      apply keeps_withRoot hsound hlookup hmem
      cases hwithout : removeLayoutLeaf tab.panes.root leafId with
      | none =>
        rw [hwithout] at hkept
        cases hkept
      | some without =>
        rw [hwithout, leavesOf_some] at hkept hremoved
        have hwithoutNodup : without.leaves.Nodup := by
          rw [hremoved]
          exact hnodup.filter _
        have hinserted := leaves_insertLeafBeside hwithoutNodup hkept leafId side none
        rw [hremoved] at hinserted
        exact hinserted.trans ((perm_append_singleton leafId _).trans
          (perm_filter_ne hnodup hleaf).symm)

theorem keeps_setPaneRatios (runtime : LayoutRuntime P) (tabId : String)
    (root : Option (TerminalPaneLayoutNode P)) (ratios : Option (List (SplitRatioIntent P))) :
    Keeps spare (setPaneRatios runtime edit workspace key tabId root ratios) := by
  rw [setPaneRatios]
  cases htab : paneTab workspace tabId with
  | none => exact keeps_refuse _
  | some tab =>
    dsimp only
    cases hresized : resizedPanes runtime tab root ratios with
    | none => exact keeps_refuse _
    | some resized =>
      refine keeps_withRoot hsound hlookup (mem_of_paneTab htab).1 ?_
      obtain ⟨current, hcurrent, hrest⟩ := bind_eq_some_iff.mp hresized
      have hleaves : leafIdsOf tab = current.leaves := by
        rw [leafIdsOf, hcurrent]
        rfl
      rw [hleaves, leavesOf_some]
      cases ratios with
      | some ratios =>
        rw [show resized.leaves = current.leaves from leaves_withSplitRatios _ _ hrest]
      | none =>
        rw [filter_eq_some_iff] at hrest
        rw [leaves_of_sameShape hrest.2]

theorem keeps_equalizePanes (runtime : LayoutRuntime P) (tabId : String) :
    Keeps spare (equalizePanes runtime edit workspace key tabId) := by
  rw [equalizePanes]
  cases htab : paneTab workspace tabId with
  | none => exact keeps_refuse _
  | some tab =>
    refine keeps_withRoot hsound hlookup (mem_of_paneTab htab).1 ?_
    rw [leafIdsOf]
    cases tab.panes.root with
    | none => exact List.Perm.refl _
    | some root =>
      rw [map_some, leavesOf_some, leavesOf_some, equalizeLayout, leaves_mapSplits]

/-! ## Pane data -/

theorem keeps_setLeaf {leafId : String} (hleaf : leafId ∈ workspace.paneIds)
    {leaf : LayoutLeaf P} (hsingle : (leaf.sleeping.isSome && leaf.resume.isSome) = false)
    (hbinding : leaf.binding = (leafOf workspace leafId).binding ∨ leaf.ptyId = none)
    {result : LayoutCommandResult} {effects : LayoutEffects}
    {outcomes : Option PaneOutcomeChanges} :
    Keeps spare (applied (withWorkspace edit key (setLeaf workspace leafId leaf)) result effects
      outcomes) := by
  refine keeps_evolved hsound hlookup ⟨sound_setLeaf (hsound.workspace key workspace hlookup)
    hleaf hsingle, evolves_setLeaf ?_⟩
  rw [bindingOf_eq_binding]
  exact hbinding

theorem single_leafOf (leafId : String) :
    ((leafOf workspace leafId).sleeping.isSome && (leafOf workspace leafId).resume.isSome) =
      false :=
  PanesSound.leafOf_single (hsound.workspace key workspace hlookup).panes leafId

theorem keeps_renamePane (tabId leafId : String) (title : Option String) :
    Keeps spare (renamePane edit workspace key tabId leafId title) := by
  rw [renamePane]
  cases htab : paneTab workspace tabId with
  | none => exact keeps_refuse _
  | some tab =>
    dsimp only
    split
    · exact keeps_refuse _
    next hheld =>
      rw [Bool.not_eq_true', Bool.not_eq_false] at hheld
      refine keeps_setLeaf hsound hlookup
        (mem_paneIds (mem_of_paneTab htab).1 (mem_leavesOf_of_contains hheld)) ?_ (Or.inl ?_)
      · exact single_leafOf hsound hlookup leafId
      · rfl

theorem keeps_setPaneGrid (tabId leafId : String) (grid : TerminalGrid) :
    Keeps spare (setPaneGrid edit workspace key tabId leafId grid) := by
  rw [setPaneGrid]
  cases htab : paneTab workspace tabId with
  | none => exact keeps_refuse _
  | some tab =>
    dsimp only
    split
    · exact keeps_refuse _
    next hheld =>
      rw [Bool.not_eq_true', Bool.not_eq_false] at hheld
      split
      · exact keeps_applied hsound
      · refine keeps_setLeaf hsound hlookup
          (mem_paneIds (mem_of_paneTab htab).1 (mem_leavesOf_of_contains hheld)) ?_ (Or.inl ?_)
        · exact single_leafOf hsound hlookup leafId
        · rfl

theorem keeps_releasePaneTerminal (tabId leafId ptyId : String) :
    Keeps spare (releasePaneTerminal edit workspace key tabId leafId ptyId) := by
  rw [releasePaneTerminal]
  cases htab : (paneTab workspace tabId).filter fun tab =>
      layoutContainsLeafId tab.panes.root leafId with
  | none => exact keeps_refuse _
  | some tab =>
    rw [filter_eq_some_iff] at htab
    dsimp only
    split
    · exact keeps_applied hsound
    · refine keeps_setLeaf hsound hlookup
        (mem_paneIds (mem_of_paneTab htab.1).1 (mem_leavesOf_of_contains htab.2)) ?_ (Or.inr ?_)
      · exact single_leafOf hsound hlookup leafId
      · rfl

/-! ## Processes -/

theorem keeps_restartPane (paneKey : String) :
    Keeps spare (restartPane edit workspace key paneKey) := by
  rw [restartPane]
  cases hpane : locatePane workspace paneKey with
  | none => exact keeps_refuse _
  | some pane =>
    refine keeps_setLeaf hsound hlookup (mem_of_locatePane hpane) ?_ (Or.inr ?_)
    · exact single_leafOf hsound hlookup pane.leafId
    · rfl

theorem keeps_startPane (paneKey : String) (context : LayoutContext) :
    Keeps spare (startPane edit workspace key paneKey context) := by
  rw [startPane]
  cases locatePane workspace paneKey with
  | none => exact keeps_refuse _
  | some pane =>
    dsimp only
    split
    · exact keeps_restartPane hsound hlookup paneKey
    · split
      · exact keeps_applied hsound
      · exact keeps_applied hsound

end Held

theorem mem_workspacePanes {pane : WorkspacePane} (hpane : pane ∈ workspacePanes workspace) :
    pane.leafId ∈ workspace.paneIds := by
  obtain ⟨tab, htab, hmem⟩ := mem_flatMap.mp hpane
  obtain ⟨leafId, hleaf, rfl⟩ := mem_map.mp hmem
  exact mem_flatMap.mpr ⟨tab, htab, hleaf⟩

/-- One pane after another is given new data that keeps its binding. -/
theorem sound_foldl_panes {spare : String → Prop}
    {step : WorkspaceLayout P → WorkspacePane → WorkspaceLayout P}
    (hstep : ∀ workspace pane, step workspace pane = workspace ∨
      ∃ leaf : LayoutLeaf P, step workspace pane = setLeaf workspace pane.leafId leaf ∧
        (leaf.sleeping.isSome && leaf.resume.isSome) = false ∧
          leaf.binding = (leafOf workspace pane.leafId).binding)
    {panes : List WorkspacePane} {workspace : WorkspaceLayout P}
    (hpanes : ∀ pane ∈ panes, pane.leafId ∈ workspace.paneIds)
    (hsound : WorkspaceSound spare workspace) :
    WorkspaceSound spare (panes.foldl step workspace) ∧
      Evolves [] [] workspace (panes.foldl step workspace) := by
  induction panes generalizing workspace with
  | nil => exact ⟨hsound, Evolves.refl workspace⟩
  | cons pane rest ih =>
    rw [foldl_cons]
    have hpane := hpanes pane mem_cons_self
    have hrest : ∀ other ∈ rest, other.leafId ∈ workspace.paneIds := fun other hother =>
      hpanes other (mem_cons_of_mem pane hother)
    rcases hstep workspace pane with hkept | ⟨leaf, hset, hsingle, hbinding⟩
    · rw [hkept]
      exact ih hrest hsound
    · rw [hset]
      have hnext : WorkspaceSound spare (setLeaf workspace pane.leafId leaf) :=
        sound_setLeaf hsound hpane hsingle
      obtain ⟨hlast, hevolves⟩ := ih (by exact hrest) hnext
      refine ⟨hlast, (evolves_setLeaf (Or.inl ?_)).trans hevolves⟩
      rw [bindingOf_eq_binding]
      exact hbinding

theorem single_withSleepRecord (leaf : LayoutLeaf P) (record : LayoutSleepingRecord P) :
    ((withSleepRecord leaf record).sleeping.isSome &&
      (withSleepRecord leaf record).resume.isSome) = false := by
  rw [withSleepRecord]
  split <;> rfl

theorem binding_withSleepRecord (leaf : LayoutLeaf P) (record : LayoutSleepingRecord P) :
    (withSleepRecord leaf record).binding = leaf.binding := by
  rw [withSleepRecord]
  split <;> rfl

section

variable (hsound : LayoutSound spare edit.model.workspaces)
  (hlookup : edit.workspace? key = some workspace) (paneKeys : Option (List String))
include hsound hlookup

theorem keeps_sleep (records : List (SleepingAgentSessionRecord P)) (recordOnly : Bool) :
    Keeps spare (sleep edit workspace key paneKeys records recordOnly) := by
  rw [sleep]
  apply keeps_applied
  split
  · refine sound_write hsound (workspaceOrEmpty_of_lookup hlookup) (sound_foldl_panes ?_ ?_
      (hsound.workspace key workspace hlookup))
    · intro current pane
      rw [sleepStep]
      cases records.find? (·.paneKey = pane.paneKey) with
      | none => exact Or.inl rfl
      | some sent =>
        exact Or.inr ⟨_, rfl, single_withSleepRecord _ _, binding_withSleepRecord _ _⟩
    · intro pane hpane
      exact mem_workspacePanes (mem_of_mem_filter hpane)
  · exact hsound

theorem keeps_wake
    (recordOnly : Bool) : Keeps spare (wake edit workspace key paneKeys recordOnly) := by
  rw [wake]
  cases recordOnly with
  | false => exact keeps_applied hsound
  | true =>
    have hmem : ∀ pane ∈ (workspacePanes workspace).filter fun pane =>
        paneKeys.all (·.contains pane.paneKey) && hasResumeRecord (leafOf workspace pane.leafId),
          pane.leafId ∈ workspace.paneIds := fun pane hpane =>
      mem_workspacePanes (mem_of_mem_filter hpane)
    apply keeps_applied
    simp only [if_true]
    generalize (workspacePanes workspace).filter (fun pane =>
        paneKeys.all (·.contains pane.paneKey) &&
          hasResumeRecord (leafOf workspace pane.leafId)) = woken at hmem ⊢
    by_cases hnone : woken = []
    · rw [if_pos hnone]
      exact hsound
    · rw [if_neg hnone]
      refine sound_write hsound (workspaceOrEmpty_of_lookup hlookup) (sound_foldl_panes ?_ hmem
        (hsound.workspace key workspace hlookup))
      intro current pane
      exact Or.inr ⟨{ leafOf current pane.leafId with sleeping := none, resume := none }, rfl,
        rfl, rfl⟩

end

/-! ## Moving a pane to a tab of its own -/

/-- The terminal a window drags out with its pane must be free. -/
def DetachFree (workspaces : Workspaces P) (workspace : WorkspaceLayout P) (leafId : String)
    (detach : Option WindowPaneDetach) : Prop :=
  ∀ ptyId, given (detach.bind (·.ptyId)) = some ptyId →
    (leafOf workspace leafId).ptyId ≠ some ptyId →
      TerminalFree workspaces leafId (detachedLeaf (leafOf workspace leafId) ptyId).binding

theorem single_detachedLeaf (leaf : LayoutLeaf P) (ptyId : String) :
    ((detachedLeaf leaf ptyId).sleeping.isSome && (detachedLeaf leaf ptyId).resume.isSome) =
      (leaf.sleeping.isSome && leaf.resume.isSome) := by
  rw [detachedLeaf]
  split <;> rfl

theorem tabs_bindDetachedLeaf (workspace : WorkspaceLayout P) (leafId : String)
    (detach : Option WindowPaneDetach) :
    (bindDetachedLeaf workspace leafId detach).tabs = workspace.tabs := by
  rw [bindDetachedLeaf]
  split
  · rfl
  · split <;> rfl

theorem sound_bindDetachedLeaf {workspaces : Workspaces P} {spare : String → Prop}
    (hsound : WorkspaceSound spare workspace) {leafId : String}
    (hleaf : leafId ∈ workspace.paneIds) {detach : Option WindowPaneDetach}
    (hfree : DetachFree workspaces workspace leafId detach) :
    WorkspaceSound spare (bindDetachedLeaf workspace leafId detach) ∧
      Replaces workspaces workspace (bindDetachedLeaf workspace leafId detach) leafId := by
  have hnothing : WorkspaceSound spare workspace ∧ Replaces workspaces workspace workspace leafId :=
    ⟨hsound, (Evolves.refl workspace).replaces (fun _ htab => absurd htab not_mem_nil)
      (fun _ hpane => absurd hpane not_mem_nil) leafId⟩
  rw [bindDetachedLeaf]
  cases hptyId : given (detach.bind (·.ptyId)) with
  | none => exact hnothing
  | some ptyId =>
    dsimp only
    split
    · exact hnothing
    next hother =>
      refine ⟨sound_setLeaf hsound hleaf ?_, replaces_setLeaf (hfree ptyId hptyId hother)⟩
      rw [single_detachedLeaf]
      exact PanesSound.leafOf_single hsound.panes leafId

/-- The pane leaves its tab for one of its own; the workspace has the same panes. -/
theorem sound_movedPane (runtime : LayoutRuntime P) {spare : String → Prop}
    (hsound : WorkspaceSound spare workspace) {tab moved : LayoutTerminalTab P}
    (htab : LayoutTab.terminal tab ∈ workspace.tabs) {leafId : String}
    (hleaf : leafId ∈ leafIdsOf tab) (hmoved : moved.panes.root = some (.leaf leafId))
    (hnew : moved.id ∉ workspace.tabIds) (placement : TabPlacement) (context : LayoutContext) :
    let placed := placeNewTab runtime (replaceTab workspace (.terminal (sourceTab tab leafId)))
      key (.terminal moved) placement context
    WorkspaceSound spare placed ∧ Evolves [moved.id] [] workspace placed := by
  intro placed
  have htabIds : (replaceTab workspace (.terminal (sourceTab tab leafId))).tabIds =
      workspace.tabIds := map_replaceKeyed LayoutTab.id _ workspace.tabs
  have hpanes : workspace.paneIds.Perm placed.paneIds := by
    have hmovedIds : (LayoutTab.terminal moved).paneIds = [leafId] := by
      rw [LayoutTab.paneIds, hmoved]
      rfl
    have hsourceIds : (LayoutTab.terminal (sourceTab tab leafId)).paneIds =
        (leafIdsOf tab).filter (· ≠ leafId) := by
      rw [LayoutTab.paneIds, sourceTab]
      dsimp only
      rw [root_withoutChat]
      exact leavesOf_removeLayoutLeaf tab.panes.root leafId
    have hreplaced := paneIds_replaceTab hsound htab
      (rfl : (LayoutTab.terminal (sourceTab tab leafId)).id = (LayoutTab.terminal tab).id)
    have hapart : (leafIdsOf tab).Perm (leafId :: (leafIdsOf tab).filter (· ≠ leafId)) :=
      perm_filter_ne (leafIds_nodup hsound htab) hleaf
    rw [hsourceIds] at hreplaced
    rw [paneIds_placeNewTab, hmovedIds]
    refine (paneIds_perm hsound htab).trans ((hapart.append_right _).trans ?_)
    exact (hreplaced.symm.cons leafId).trans (perm_append_singleton leafId _).symm
  refine ⟨⟨?_, hsound.panes.congr hpanes⟩, fun tabId hmem => ?_,
    fun paneId hmem => Or.inl (hpanes.mem_iff.mpr hmem), fun _ => Or.inl rfl⟩
  · refine groups_placeNewTab runtime key placement context
      (groups_replaceTab hsound (.terminal (sourceTab tab leafId))) ?_ fun _ hgroup _ => hgroup
    rw [htabIds]
    exact hnew
  · rw [tabIds_placeNewTab, htabIds] at hmem
    exact mem_append.mp hmem

def movedTabId (command : MovePaneToNewTab) (context : LayoutContext) : String :=
  (command.windowDetach.bind (·.tabId)).getD (context.mintId 0)

/-- A pane that moves takes its terminal to a new tab. -/
theorem keeps_movePaneToNewTab (runtime : LayoutRuntime P)
    (hsound : LayoutSound spare edit.model.workspaces)
    (hlookup : edit.workspace? key = some workspace) {command : MovePaneToNewTab}
    (hkey : command.workspace = key) {context : LayoutContext}
    (hnew : Unused WorkspaceLayout.tabIds edit.model.workspaces (movedTabId command context))
    (hfree : DetachFree edit.model.workspaces workspace command.leafId command.windowDetach) :
    Keeps spare (movePaneToNewTab runtime edit workspace command context) := by
  rw [movePaneToNewTab]
  dsimp only
  cases htab : paneTab workspace command.tabId with
  | none => exact keeps_refuse _
  | some tab =>
    dsimp only
    split
    · exact keeps_refuse _
    next hheld =>
      split
      · exact keeps_refuse _
      rw [Bool.not_eq_true', Bool.not_eq_false] at hheld
      have hmem := (mem_of_paneTab htab).1
      have hleaf : command.leafId ∈ leafIdsOf tab := mem_leavesOf_of_contains hheld
      obtain ⟨hbound, hreplaces⟩ := sound_bindDetachedLeaf
        (hsound.workspace key workspace hlookup) (mem_paneIds hmem hleaf) hfree
      have htabs := tabs_bindDetachedLeaf workspace command.leafId command.windowDetach
      generalize bindDetachedLeaf workspace command.leafId command.windowDetach = bound at *
      rw [← htabs] at hmem
      have hplaced : ∀ (moved : LayoutTerminalTab P) (placement : TabPlacement)
          (context : LayoutContext),
          Unused WorkspaceLayout.tabIds edit.model.workspaces moved.id →
            moved.panes.root = some (.leaf command.leafId) →
              LayoutSound spare (withWorkspace edit key (placeNewTab runtime
                (replaceTab bound (.terminal (sourceTab tab command.leafId))) key
                  (.terminal moved) placement context)).model.workspaces := by
        intro moved placement context hunused hroot
        have hids : moved.id ∉ bound.tabIds := by
          rw [WorkspaceLayout.tabIds, htabs]
          exact hunused key workspace hlookup
        obtain ⟨hsoundMoved, hevolves⟩ :=
          sound_movedPane runtime hbound hmem hleaf hroot hids placement context
        refine hsound.set (workspaceOrEmpty_of_lookup hlookup) hsoundMoved
          (fun _ _ _ hgroup => hgroup) (hevolves.after hreplaces fun tabId htab => ?_)
        rw [mem_singleton.mp htab]
        exact hunused
      rw [hkey]
      rw [movedTabId] at hnew
      cases htabId : command.windowDetach.bind (·.tabId) with
      | none =>
        rw [htabId, getD_none] at hnew
        exact keeps_applied (hplaced _ _ _ hnew rfl)
      | some tabId =>
        rw [htabId, getD_some] at hnew
        exact keeps_applied (hplaced _ _ _ hnew rfl)

end Wakii.PaneCommandsSound
