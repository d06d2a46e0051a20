import Wakii.Layout.StepsSound

/-!
# Commands on tabs keep a layout sound

A command that does not refuse leaves a sound layout.  A tab that is made needs
an id that no workspace has, and a terminal that is adopted must be free.
-/

namespace Wakii.TabCommandsSound

open Option List OrderedCollections
open Wakii.CommandSteps Wakii.CommandTypes Wakii.LayoutModel
open Wakii.LayoutSoundness Wakii.StepsSound Wakii.TabCommands

variable {P : Type} {spare : String → String → Prop} {edit : LayoutEdit P} {key : String}
  {workspace : WorkspaceLayout P}

/-! ## What a command keeps -/

def Keeps (spare : String → String → Prop) (result : Applied P) : Prop :=
  ∀ next, result = .ok next → LayoutSound spare next.edit.model.workspaces

@[simp]
theorem keeps_refuse (code : LayoutRefusalCode) : Keeps spare (refuse code : Applied P) :=
  fun _ hnext => by cases hnext

theorem keeps_applied (hsound : LayoutSound spare edit.model.workspaces)
    {result : LayoutCommandResult} {effects : LayoutEffects}
    {outcomes : Option PaneOutcomeChanges} :
    Keeps spare (applied edit result effects outcomes) := by
  intro next hnext
  rw [← Except.ok.inj hnext]
  exact hsound

theorem sound_write (hsound : LayoutSound spare edit.model.workspaces)
    {old new : WorkspaceLayout P} (hold : workspaceOrEmpty edit key = old)
    (hnew : WorkspaceSound (spare key) new ∧ Evolves [] [] old new) :
    LayoutSound spare (withWorkspace edit key new).model.workspaces :=
  hsound.set hold hnew.1 (fun _ _ _ hgroup => hgroup)
    (hnew.2.replaces (fun _ htab => absurd htab not_mem_nil)
      (fun _ hpane => absurd hpane not_mem_nil) "")

theorem workspaceOrEmpty_of_lookup (hlookup : edit.workspace? key = some workspace) :
    workspaceOrEmpty edit key = workspace := by
  rw [workspaceOrEmpty, hlookup]
  rfl

theorem sound_workspaceOrEmpty (hsound : LayoutSound spare edit.model.workspaces)
    (key : String) : WorkspaceSound (spare key) (workspaceOrEmpty edit key) :=
  hsound.getD key

variable {idsOf : WorkspaceLayout P → List String}

theorem Unused.workspaceOrEmpty {id : String} (hunused : Unused idsOf edit.model.workspaces id)
    (hempty : idsOf (emptyWorkspace key) = []) :
    id ∉ idsOf (workspaceOrEmpty edit key) := by
  rw [CommandSteps.workspaceOrEmpty]
  cases hlookup : edit.workspace? key with
  | none =>
    rw [getD_none, hempty]
    exact not_mem_nil
  | some workspace => exact hunused key workspace hlookup

section Held

variable (hsound : LayoutSound spare edit.model.workspaces)
  (hlookup : edit.workspace? key = some workspace)

include hsound hlookup

variable {next : WorkspaceLayout P} (tabId : String) {outcomes : Option PaneOutcomeChanges}
  {effects : LayoutEffects} {result : LayoutCommandResult}

theorem keeps_evolved (hnext : WorkspaceSound (spare key) next ∧ Evolves [] [] workspace next) :
    Keeps spare (applied (withWorkspace edit key next) result effects outcomes) :=
  keeps_applied (sound_write hsound (workspaceOrEmpty_of_lookup hlookup) hnext)

theorem keeps_gained {tabs panes : List String}
    (hnext : WorkspaceSound (spare key) next ∧ Evolves tabs panes workspace next)
    (htabs : ∀ tabId ∈ tabs, Unused WorkspaceLayout.tabIds edit.model.workspaces tabId)
    (hpanes : ∀ paneId ∈ panes, Unused WorkspaceLayout.paneIds edit.model.workspaces paneId) :
    Keeps spare (applied (withWorkspace edit key next) result effects outcomes) :=
  keeps_applied (hsound.set (workspaceOrEmpty_of_lookup hlookup) hnext.1
    (fun _ _ _ hgroup => hgroup) (hnext.2.replaces htabs hpanes ""))

theorem keeps_sameFrame (hframe : SameFrame workspace next) :
    Keeps spare (applied (withWorkspace edit key next) result effects outcomes) :=
  keeps_evolved hsound hlookup
    ⟨hframe.sound (hsound.workspace key workspace hlookup), hframe.evolves⟩

theorem keeps_updateTab {tab next : LayoutTab P} (htab : tab ∈ workspace.tabs)
    (hid : next.id = tab.id) (hpanes : next.paneIds = tab.paneIds) :
    Keeps spare (updateTab edit key workspace next) :=
  keeps_sameFrame hsound hlookup
    (replaceTab_frame (hsound.workspace key workspace hlookup) htab hid hpanes)

/-! ## Names and marks -/

theorem keeps_mapFields {tab : LayoutTab P} (htab : tab ∈ workspace.tabs)
    {change : LayoutTabFields P → LayoutTabFields P}
    (hchange : ∀ fields, (change fields).id = fields.id) :
    Keeps spare (updateTab edit key workspace (tab.mapFields change)) := by
  refine keeps_updateTab hsound hlookup htab ?_ (LayoutTab.paneIds_mapFields change tab)
  rw [LayoutTab.id, LayoutTab.fields_mapFields, hchange]
  rfl

theorem keeps_renameTab (title : TabTitle P) :
    Keeps spare (renameTab edit workspace key tabId title) := by
  rw [renameTab]
  cases htab : findTab workspace tabId with
  | none => exact keeps_refuse _
  | some tab =>
    have hmem := (mem_of_findTab htab).1
    cases title with
    | aiVault title => exact keeps_mapFields hsound hlookup hmem fun _ => rfl
    | custom title expected =>
      dsimp only
      split
      · exact keeps_refuse _
      · exact keeps_mapFields hsound hlookup hmem fun _ => rfl
    | generated title replaceExisting =>
      dsimp only
      split
      · exact keeps_refuse _
      · exact keeps_mapFields hsound hlookup hmem fun _ => rfl

omit hsound hlookup in
theorem id_withProps (tab : LayoutTab P) (command : SetTabProps) :
    (withProps tab command).id = tab.id := by
  cases tab with
  | terminal tab =>
    simp only [withProps, LayoutTab.mapFields]
    split <;> rfl
  | content tab => rfl

omit hsound hlookup in
theorem paneIds_withProps (tab : LayoutTab P) (command : SetTabProps) :
    (withProps tab command).paneIds = tab.paneIds := by
  cases tab with
  | terminal tab =>
    simp only [withProps, LayoutTab.mapFields]
    split <;> rfl
  | content tab => rfl

theorem keeps_mapOrders {change : LayoutGroup → LayoutGroup}
    (htabs : next.tabIds = workspace.tabIds) (hpanes : next.paneIds = workspace.paneIds)
    (hgroups : next.groups = workspace.groups.map change)
    (hlayout : next.groupLayout = workspace.groupLayout) (hleaves : next.leaves = workspace.leaves)
    (hid : ∀ group ∈ workspace.groups, (change group).id = group.id)
    (horder : ∀ group ∈ workspace.groups, (change group).tabOrder.Perm group.tabOrder) :
    Keeps spare (applied (withWorkspace edit key next) result) := by
  have hworkspace := hsound.workspace key workspace hlookup
  have hleaf : next.leaf? = workspace.leaf? := by
    funext leafId
    rw [WorkspaceLayout.leaf?, WorkspaceLayout.leaf?, hleaves]
  refine keeps_evolved hsound hlookup ⟨⟨?_, ?_⟩, ?_, ?_, fun leafId => Or.inl ?_⟩
  · rw [htabs, hgroups, hlayout]
    exact hworkspace.groups.mapOrders hid horder
  · rw [hpanes, hleaf]
    exact hworkspace.panes
  · exact fun tabId htab => Or.inl (htabs ▸ htab)
  · exact fun paneId hpane => Or.inl (hpanes ▸ hpane)
  · rw [WorkspaceLayout.bindingOf, hleaf]
    rfl

theorem keeps_setTabProps {command : SetTabProps} (hkey : command.workspace = key) :
    Keeps spare (setTabProps edit workspace command) := by
  rw [setTabProps]
  cases htab : findTab workspace command.tabId with
  | none => exact keeps_refuse _
  | some tab =>
    have hmem := (mem_of_findTab htab).1
    have hworkspace := hsound.workspace key workspace hlookup
    have hframe := replaceTab_frame hworkspace hmem (id_withProps tab command)
      (paneIds_withProps tab command)
    dsimp only
    split
    · exact keeps_refuse _
    rw [hkey]
    by_cases hpinned : command.isPinned.any (· ≠ tab.isPinned)
    · rw [if_pos hpinned]
      refine keeps_mapOrders hsound hlookup ?_ ?_ (map_congr_left fun _ _ => rfl) ?_ ?_ ?_ ?_
      · exact hframe.tabIds
      · exact hframe.paneIds
      · rfl
      · rfl
      · intro group _
        split <;> rfl
      · intro group hgroup
        split
        next hlists =>
          exact partitionPinnedTabOrder_perm (hworkspace.groups.order_nodup hgroup) hlists _
        next => exact List.Perm.refl _
    · rw [if_neg hpinned]
      exact keeps_sameFrame hsound hlookup hframe

theorem keeps_setChatPane (leafId : Option String) :
    Keeps spare (setChatPane edit workspace key tabId leafId) := by
  rw [setChatPane]
  cases htab : findTerminal workspace tabId with
  | none => exact keeps_refuse _
  | some tab =>
    dsimp only
    split
    · exact keeps_refuse _
    · exact keeps_updateTab hsound hlookup (mem_of_findTerminal htab).1 rfl rfl

theorem keeps_promotePreviewTab : Keeps spare (promotePreviewTab edit workspace key tabId) := by
  rw [promotePreviewTab]
  cases htab : findTab workspace tabId with
  | none => exact keeps_refuse _
  | some tab => exact keeps_mapFields hsound hlookup (mem_of_findTab htab).1 fun _ => rfl

end Held

/-! ## Closing tabs -/

variable (runtime : LayoutRuntime P)

theorem sound_closeStep {spare : String → Prop} (command : CloseTabs) {progress : CloseProgress P}
    (hsound : WorkspaceSound spare progress.workspace) (tabId : String) :
    WorkspaceSound spare (closeStep runtime command progress tabId).workspace ∧
      Evolves [] [] progress.workspace (closeStep runtime command progress tabId).workspace := by
  rw [closeStep]
  cases htab : findTab progress.workspace tabId with
  | none => exact ⟨hsound, Evolves.refl _⟩
  | some tab =>
    dsimp only
    cases closeRefusal command tab with
    | some code => exact ⟨hsound, Evolves.refl _⟩
    | none => exact sound_closeTab runtime hsound (mem_of_findTab htab).1

theorem sound_foldl_closeStep {spare : String → Prop}
    (command : CloseTabs) (tabIds : List String) {progress : CloseProgress P}
    (hsound : WorkspaceSound spare progress.workspace) :
    WorkspaceSound spare (tabIds.foldl (closeStep runtime command) progress).workspace ∧
      Evolves [] [] progress.workspace
        (tabIds.foldl (closeStep runtime command) progress).workspace := by
  induction tabIds generalizing progress with
  | nil => exact ⟨hsound, Evolves.refl _⟩
  | cons tabId rest ih =>
    obtain ⟨hstep, hevolves⟩ := sound_closeStep runtime command hsound tabId
    obtain ⟨hlast, hrest⟩ := ih hstep
    exact ⟨hlast, hevolves.trans hrest⟩

theorem keeps_closeTabs (hsound : LayoutSound spare edit.model.workspaces)
    (hlookup : edit.workspace? key = some workspace) {command : CloseTabs}
    (hkey : command.workspace = key) (now : ℤ) :
    Keeps spare (closeTabs runtime edit workspace command now) := by
  have hstart : WorkspaceSound (spare key) ({ workspace } : CloseProgress P).workspace :=
    hsound.workspace key workspace hlookup
  obtain ⟨hclosed, hevolves⟩ := sound_foldl_closeStep runtime command command.tabIds hstart
  rw [closeTabs, hkey]
  generalize command.tabIds.foldl (closeStep runtime command) { workspace } = progress at *
  apply keeps_applied
  have hkept : ∀ {next : WorkspaceLayout P}, SameFrame progress.workspace next →
      LayoutSound spare (withWorkspace edit key next).model.workspaces := fun hframe =>
    sound_write hsound (workspaceOrEmpty_of_lookup hlookup)
      ⟨hframe.sound hclosed, hevolves.trans hframe.evolves⟩
  have hwritten : LayoutSound spare (if progress.changed then
      withWorkspace edit key progress.workspace else edit).model.workspaces := by
    split
    · exact hkept ⟨rfl, rfl, rfl, rfl, rfl⟩
    · exact hsound
  cases command.recordClose with
  | none => exact hwritten
  | some reason =>
    dsimp only
    by_cases hrecorded : progress.recorded = []
    · rw [if_pos hrecorded]
      exact hwritten
    · rw [if_neg hrecorded]
      exact hkept ⟨rfl, rfl, rfl, rfl, rfl⟩

/-! ## Placing a tab -/

section

variable {spare' : String → String → Prop} (hsound : LayoutSound spare edit.model.workspaces)
  {tab : LayoutTab P} (placement : TabPlacement)
include hsound

theorem sound_placed (context : LayoutContext)
    (hunused : Unused WorkspaceLayout.tabIds edit.model.workspaces tab.id)
    (hpanes : tab.paneIds.Nodup)
    (hnewPanes : ∀ paneId ∈ tab.paneIds,
      Unused WorkspaceLayout.paneIds edit.model.workspaces paneId)
    (hspare : ∀ groupId, spare key groupId →
      groupId ≠ placedGroupId runtime (workspaceOrEmpty edit key) key placement context →
        spare' key groupId) :
    WorkspaceSound (spare' key)
        (placeNewTab runtime (workspaceOrEmpty edit key) key tab placement context) ∧
      Evolves [tab.id] tab.paneIds (workspaceOrEmpty edit key)
        (placeNewTab runtime (workspaceOrEmpty edit key) key tab placement context) := by
  refine ⟨?_, evolves_placeNewTab runtime _ key tab placement context⟩
  exact sound_placeNewTab runtime key placement context (sound_workspaceOrEmpty hsound key)
    (Unused.workspaceOrEmpty hunused rfl) hpanes
    (fun paneId hpane => Unused.workspaceOrEmpty (hnewPanes paneId hpane) rfl) hspare

/-- The preview a tab takes the place of closes once the tab is there. -/
theorem sound_placeContentTab (dirtyTabIds : List String) (context : LayoutContext)
    (hunused : Unused WorkspaceLayout.tabIds edit.model.workspaces tab.id)
    (hpanes : tab.paneIds = [])
    (hothers : ∀ other, other ≠ key → ∀ groupId, spare other groupId → spare' other groupId)
    (hspare : ∀ groupId, spare key groupId → spare' key groupId ∨ ∀ placement : TabPlacement,
      placedGroupId runtime (workspaceOrEmpty edit key) key placement context = groupId) :
    LayoutSound spare'
      (placeContentTab runtime edit key tab placement dirtyTabIds
        context).edit.model.workspaces := by
  rw [placeContentTab]
  dsimp only
  generalize hgroup : contentGroup (workspaceOrEmpty edit key) placement.groupId = group
  generalize hplacement : ({ placement with
    groupId := (group.map (·.id)).or placement.groupId } : TabPlacement) = target
  have hnodup : tab.paneIds.Nodup := by
    rw [hpanes]
    exact nodup_nil
  have hnone : ∀ paneId ∈ tab.paneIds,
      Unused WorkspaceLayout.paneIds edit.model.workspaces paneId := by
    rw [hpanes]
    exact fun _ hpane => absurd hpane not_mem_nil
  have hgoes : ∀ groupId, spare key groupId →
      groupId ≠ placedGroupId runtime (workspaceOrEmpty edit key) key target context →
        spare' key groupId := fun groupId hspared hdiffer =>
    (hspare groupId hspared).resolve_right fun hall => hdiffer (hall target).symm
  obtain ⟨hplaced, hevolves⟩ :=
    sound_placed runtime hsound target context hunused hnodup hnone hgoes
  generalize placeNewTab runtime (workspaceOrEmpty edit key) key tab target context =
    placed at hplaced hevolves ⊢
  have hwritten : ∀ {next : WorkspaceLayout P}, WorkspaceSound (spare' key) next →
      Evolves [] [] placed next →
        LayoutSound spare' (withWorkspace edit key next).model.workspaces := by
    intro next hnext hrest
    refine hsound.set rfl hnext hothers ((hevolves.trans hrest.mono).replaces ?_ hnone "")
    intro tabId htab
    rw [mem_singleton.mp htab]
    exact hunused
  cases replacedPreview (workspaceOrEmpty edit key) group tab with
  | none => exact hwritten hplaced (Evolves.refl placed)
  | some preview =>
    have hstart : WorkspaceSound (spare' key)
        ({ workspace := placed } : CloseProgress P).workspace := hplaced
    obtain ⟨hclosed, hrest⟩ := sound_closeStep runtime
      { workspace := key, tabIds := [preview.id], dirtyTabIds } hstart preview.id
    exact hwritten hclosed hrest

end

/-! ## Live terminals -/

/-- What a pane is bound to once it shows an adopted terminal, which must be free. -/
def AdoptionFree (workspaces : Workspaces P) (workspace : WorkspaceLayout P)
    (adoption : LiveTerminalAdoption) (held : LocatedPane P) : Prop :=
  (leafOf workspace held.leafId).ptyId ≠ some adoption.ptyId → TerminalFree workspaces held.leafId
      (adoptedLeaf (leafOf workspace held.leafId) adoption).binding

variable {adoption : LiveTerminalAdoption}

theorem mem_of_heldPaneOfTerminal {held : LocatedPane P}
    (hheld : heldPaneOfTerminal workspace adoption = some held) :
    held.leafId ∈ workspace.paneIds := by
  rw [heldPaneOfTerminal, or_eq_some_iff] at hheld
  rcases hheld with hshows | ⟨_, hrecorded⟩
  · exact (mem_of_findSome_findPane hshows).1
  · rw [filter_eq_some_iff] at hrecorded
    obtain ⟨paneKey, _, hlocated⟩ := bind_eq_some_iff.mp hrecorded.1
    exact mem_of_locatePane hlocated

theorem heldPane_of_appliedHeldAdoption (hnone : appliedHeldAdoption edit key adoption = none) :
    heldPaneOfTerminal (workspaceOrEmpty edit key) adoption = none := by
  rw [appliedHeldAdoption] at hnone
  cases hlookup : edit.workspace? key with
  | none =>
    rw [workspaceOrEmpty, hlookup, getD_none, heldPaneOfTerminal]
    cases given adoption.recordedPaneKey <;> rfl
  | some workspace =>
    rw [workspaceOrEmpty_of_lookup hlookup]
    cases hheld : heldPaneOfTerminal workspace adoption with
    | none => rfl
    | some held =>
      rw [hlookup, bind_eq_bind, bind_some, hheld, bind_eq_bind, bind_some] at hnone
      dsimp only at hnone
      split at hnone <;> cases hnone

theorem keeps_appliedHeldAdoption (hsound : LayoutSound spare edit.model.workspaces)
    {result : Applied P} (hresult : appliedHeldAdoption edit key adoption = some result)
    (hfree : ∀ held, heldPaneOfTerminal (workspaceOrEmpty edit key) adoption = some held →
      AdoptionFree edit.model.workspaces (workspaceOrEmpty edit key) adoption held) :
    Keeps spare result := by
  obtain ⟨workspace, hlookup, hrest⟩ := bind_eq_some_iff.mp hresult
  obtain ⟨held, hheld, hbound⟩ := bind_eq_some_iff.mp hrest
  rw [workspaceOrEmpty_of_lookup hlookup] at hfree
  have hmem := mem_of_heldPaneOfTerminal hheld
  have hworkspace := hsound.workspace key workspace hlookup
  dsimp only at hbound
  split at hbound
  next hshown =>
    cases hbound
    exact keeps_applied hsound
  next hother =>
    cases hbound
    apply keeps_applied
    refine hsound.set (workspaceOrEmpty_of_lookup hlookup)
      (sound_setLeaf hworkspace hmem ?_) (fun _ _ _ hgroup => hgroup)
      (replaces_setLeaf (hfree held hheld hother))
    exact PanesSound.leafOf_single hworkspace.panes held.leafId

/-! ## New terminal tabs -/

def newTabId (command : CreateTerminalTab) (context : LayoutContext) : String :=
  command.tabId.getD (context.mintId 0)

def newLeafId (command : CreateTerminalTab) (context : LayoutContext) : String :=
  command.leafId.getD (context.mintLeafId 0)

def heldFor (workspace : WorkspaceLayout P) (command : CreateTerminalTab) :
    Option (LocatedPane P) :=
  command.adopt.bind (heldPaneOfTerminal workspace)

/-- A terminal tab may be made: its ids are new, and the terminal it adopts is
free. -/
structure TerminalTabFree (workspaces : Workspaces P) (command : CreateTerminalTab)
    (context : LayoutContext) : Prop where
  tab : Unused WorkspaceLayout.tabIds workspaces (newTabId command context)
  pane : Unused WorkspaceLayout.paneIds workspaces (newLeafId command context)
  terminal : ∀ adoption ∈ command.adopt,
    TerminalFree workspaces (newLeafId command context) (adoptedLeaf ({} : LayoutLeaf P)
      adoption).binding

theorem root_newTerminalTab (workspace : WorkspaceLayout P) (command : CreateTerminalTab)
    (id leafId : String) (now : ℤ) :
    (newTerminalTab workspace command id leafId now).panes.root = some (.leaf leafId) := rfl

/-- A tab with one new pane is placed, and the pane bound where a terminal is
adopted. -/
theorem sound_newTerminalTab
    (hsound : LayoutSound spare edit.model.workspaces) {tab : LayoutTerminalTab P}
    {leafId : String} (hroot : tab.panes.root = some (.leaf leafId)) (placement : TabPlacement)
    (context : LayoutContext)
    (htab : Unused WorkspaceLayout.tabIds edit.model.workspaces tab.id)
    (hleaf : Unused WorkspaceLayout.paneIds edit.model.workspaces leafId) :
    LayoutSound spare (withWorkspace edit key (placeNewTab runtime (workspaceOrEmpty edit key) key
        (.terminal tab) placement context)).model.workspaces ∧
      ∀ leaf : LayoutLeaf P, (leaf.sleeping.isSome && leaf.resume.isSome) = false →
        TerminalFree edit.model.workspaces leafId leaf.binding →
          LayoutSound spare (withWorkspace edit key (setLeaf (placeNewTab runtime
            (workspaceOrEmpty edit key) key (.terminal tab) placement context) leafId
              leaf)).model.workspaces := by
  have hpanes : (LayoutTab.terminal tab).paneIds = [leafId] := by
    rw [LayoutTab.paneIds, hroot]
    rfl
  have hnewPanes : ∀ paneId ∈ (LayoutTab.terminal tab).paneIds,
      Unused WorkspaceLayout.paneIds edit.model.workspaces paneId := by
    intro paneId hpane
    rw [hpanes, mem_singleton] at hpane
    rw [hpane]
    exact hleaf
  have htabs : ∀ tabId ∈ [(LayoutTab.terminal tab).id],
      Unused WorkspaceLayout.tabIds edit.model.workspaces tabId := by
    intro tabId hmem
    rw [mem_singleton.mp hmem]
    exact htab
  have hnodup : (LayoutTab.terminal tab).paneIds.Nodup := by
    rw [hpanes]
    exact nodup_singleton leafId
  have hunused : Unused WorkspaceLayout.tabIds edit.model.workspaces
      (LayoutTab.terminal tab).id := htab
  obtain ⟨hplaced, hevolves⟩ := sound_placed runtime hsound placement context hunused hnodup
    hnewPanes fun _ hgroup _ => hgroup
  refine ⟨hsound.set rfl hplaced (fun _ _ _ hgroup => hgroup)
    (hevolves.replaces htabs hnewPanes ""), fun leaf hsingle hfree => ?_⟩
  refine hsound.set rfl (sound_setLeaf hplaced ?_ hsingle) (fun _ _ _ hgroup => hgroup)
    (hevolves.replaces_setLeaf htabs hnewPanes hfree)
  rw [paneIds_placeNewTab, hpanes]
  exact mem_append_right _ (mem_singleton_self leafId)

theorem admitted_of_not_any {model : WorkspaceLayoutModel P}
    {initial : Option InitialSurfaceReason}
    (hinitial : ¬ initial.any fun reason => !admitsInitialSurface model key reason) :
    initial.all (admitsInitialSurface model key) := by
  cases initial with
  | none => rfl
  | some reason => simpa using hinitial

/-- A new tab may adopt a terminal whose pane is free. -/
theorem keeps_createTerminalTab
    (hsound : LayoutSound spare edit.model.workspaces) {command : CreateTerminalTab}
    (hkey : command.workspace = key) (context : LayoutContext)
    (hheld : ∀ adoption ∈ command.adopt, ∀ held,
      heldPaneOfTerminal (workspaceOrEmpty edit key) adoption = some held →
        AdoptionFree edit.model.workspaces (workspaceOrEmpty edit key) adoption held)
    (hnew : (command.initial.all (admitsInitialSurface edit.model key)) →
      heldFor (workspaceOrEmpty edit key) command = none →
        TerminalTabFree edit.model.workspaces command context) :
    Keeps spare (createTerminalTab runtime edit command context) := by
  subst hkey
  rw [createTerminalTab]
  by_cases hinitial : command.initial.any fun reason =>
      !admitsInitialSurface edit.model command.workspace reason
  · rw [if_pos hinitial]
    exact keeps_applied hsound
  rw [if_neg hinitial]
  have hadmitted := admitted_of_not_any hinitial
  cases hadopted : command.adopt.bind (appliedHeldAdoption edit command.workspace) with
  | some held =>
    obtain ⟨adoption, hadoption, hresult⟩ := bind_eq_some_iff.mp hadopted
    exact keeps_appliedHeldAdoption hsound hresult (hheld adoption hadoption)
  | none =>
    have hnone : heldFor (workspaceOrEmpty edit command.workspace) command = none := by
      rw [heldFor]
      cases hadoption : command.adopt with
      | none => rfl
      | some adoption =>
        rw [hadoption, bind_some] at hadopted
        exact heldPane_of_appliedHeldAdoption hadopted
    obtain ⟨htab, hpane, hterminal⟩ := hnew hadmitted hnone
    rw [newTabId] at htab
    rw [newLeafId] at hpane hterminal
    dsimp only
    cases htabId : command.tabId with
    | none =>
      rw [htabId, getD_none] at htab
      obtain ⟨hplaced, hbound⟩ := sound_newTerminalTab runtime hsound
        (root_newTerminalTab (workspaceOrEmpty edit command.workspace) command
          (context.mintId 0) (command.leafId.getD (context.mintLeafId 0)) context.now)
        ⟨command.groupId, command.afterTabId, command.index⟩ context.nextId htab hpane
      cases hadoption : command.adopt with
      | none => exact keeps_applied hplaced
      | some adoption =>
        exact keeps_applied (hbound (adoptedLeaf {} adoption) rfl (hterminal adoption hadoption))
    | some tabId =>
      rw [htabId, getD_some] at htab
      obtain ⟨hplaced, hbound⟩ := sound_newTerminalTab runtime hsound
        (root_newTerminalTab (workspaceOrEmpty edit command.workspace) command
          tabId (command.leafId.getD (context.mintLeafId 0)) context.now)
        ⟨command.groupId, command.afterTabId, command.index⟩ context htab hpane
      cases hadoption : command.adopt with
      | none => exact keeps_applied hplaced
      | some adoption =>
        exact keeps_applied (hbound (adoptedLeaf {} adoption) rfl (hterminal adoption hadoption))

/-! ## Default tabs -/

theorem Unused.write {id : String} (hunused : Unused idsOf edit.model.workspaces id)
    {new : WorkspaceLayout P} (hnew : id ∉ idsOf new) :
    Unused idsOf (withWorkspace edit key new).model.workspaces id := by
  intro other workspace hlookup
  rw [LayoutEdit.workspaces_withWorkspace, OrderedMap.lookup_set] at hlookup
  by_cases hother : other = key
  · rw [if_pos hother, Option.some.injEq] at hlookup
    rw [← hlookup]
    exact hnew
  · rw [if_neg hother] at hlookup
    exact hunused other workspace hlookup

/-- The ids of default tabs are new and no two of them are one. -/
structure DefaultTabsFree (workspaces : Workspaces P) (tabs : List DefaultTerminalTab) :
    Prop where
  tabsNew : ∀ template ∈ tabs, Unused WorkspaceLayout.tabIds workspaces template.tabId
  panesNew : ∀ template ∈ tabs, Unused WorkspaceLayout.paneIds workspaces template.leafId
  tabsApart : (tabs.map (·.tabId)).Nodup
  panesApart : (tabs.map (·.leafId)).Nodup

theorem createTerminalTab_default (edit : LayoutEdit P)
    (key : String) (template : DefaultTerminalTab) (context : LayoutContext) :
    ∃ result effects, createTerminalTab runtime edit (defaultTabCommand key template) context =
      applied (withWorkspace edit key (placeNewTab runtime (workspaceOrEmpty edit key) key
        (.terminal (newTerminalTab (workspaceOrEmpty edit key) (defaultTabCommand key template)
          template.tabId template.leafId context.now)) ⟨none, none, none⟩ context))
        result effects :=
  ⟨_, _, rfl⟩

section

variable {progress next : DefaultTabsProgress P} (context : LayoutContext)
  (hsound : LayoutSound spare progress.edit.model.workspaces)
include hsound

theorem sound_applyDefaultTab {template : DefaultTerminalTab} {rest : List DefaultTerminalTab}
    (hfree : DefaultTabsFree progress.edit.model.workspaces (template :: rest))
    (hnext : applyDefaultTab runtime key context progress template = .ok next) :
    LayoutSound spare next.edit.model.workspaces ∧
      DefaultTabsFree next.edit.model.workspaces rest := by
  obtain ⟨result, effects, hcreated⟩ :=
    createTerminalTab_default runtime progress.edit key template context
  rw [applyDefaultTab, hcreated] at hnext
  have hedit : next.edit = withWorkspace progress.edit key (placeNewTab runtime
      (workspaceOrEmpty progress.edit key) key (.terminal (newTerminalTab
        (workspaceOrEmpty progress.edit key) (defaultTabCommand key template) template.tabId
          template.leafId context.now)) ⟨none, none, none⟩ context) := by
    rw [← Except.ok.inj hnext]
  have htab := hfree.tabsNew template mem_cons_self
  have hpane := hfree.panesNew template mem_cons_self
  have htabsApart := nodup_cons.mp hfree.tabsApart
  have hpanesApart := nodup_cons.mp hfree.panesApart
  rw [hedit]
  refine ⟨(sound_newTerminalTab runtime hsound (root_newTerminalTab _ _ _ template.leafId
    context.now) ⟨none, none, none⟩ context htab hpane).1, ?_, ?_, htabsApart.2, hpanesApart.2⟩
  · intro other hother
    have hold := hfree.tabsNew other (mem_cons_of_mem _ hother)
    refine Unused.write hold ?_
    rw [tabIds_placeNewTab, mem_append, mem_singleton, not_or]
    refine ⟨Unused.workspaceOrEmpty hold rfl, fun hsame => htabsApart.1 ?_⟩
    exact mem_map.mpr ⟨other, hother, hsame⟩
  · intro other hother
    have hold := hfree.panesNew other (mem_cons_of_mem _ hother)
    refine Unused.write hold ?_
    rw [paneIds_placeNewTab, mem_append, not_or]
    refine ⟨Unused.workspaceOrEmpty hold rfl, fun hmem => hpanesApart.1 ?_⟩
    exact mem_map.mpr ⟨other, hother, mem_singleton.mp hmem⟩

theorem sound_foldlM_applyDefaultTab {tabs : List DefaultTerminalTab}
    (hfree : DefaultTabsFree progress.edit.model.workspaces tabs)
    (hnext : tabs.foldlM (applyDefaultTab runtime key context) progress = .ok next) :
    LayoutSound spare next.edit.model.workspaces := by
  induction tabs generalizing progress with
  | nil =>
    cases hnext
    exact hsound
  | cons template rest ih =>
    rw [foldlM_cons] at hnext
    cases hstep : applyDefaultTab runtime key context progress template with
    | error code =>
      rw [hstep] at hnext
      cases hnext
    | ok middle =>
      rw [hstep] at hnext
      obtain ⟨hmiddle, hrest⟩ := sound_applyDefaultTab runtime context hsound hfree hstep
      exact ih hmiddle hrest hnext

end

theorem workspaces_setDefaultTabsApplied (edit : LayoutEdit P) (key : String) :
    (setDefaultTabsApplied edit key).model.workspaces = edit.model.workspaces := by
  rw [setDefaultTabsApplied]
  dsimp only
  split <;> rfl

theorem keeps_setDefaultTabsApplied (hsound : LayoutSound spare edit.model.workspaces)
    (key : String) : Keeps spare (applied (setDefaultTabsApplied edit key)) := by
  apply keeps_applied
  rw [workspaces_setDefaultTabsApplied]
  exact hsound

theorem keeps_applyDefaultTabs (hsound : LayoutSound spare edit.model.workspaces) (key : String)
    {tabs : List DefaultTerminalTab} (context : LayoutContext)
    (hfree : DefaultTabsFree edit.model.workspaces tabs) :
    Keeps spare (applyDefaultTabs runtime edit key tabs context) := by
  rw [applyDefaultTabs]
  split
  · exact keeps_applied hsound
  · cases hfold : tabs.foldlM (applyDefaultTab runtime key context)
        ({ edit } : DefaultTabsProgress P) with
    | error code => exact keeps_refuse _
    | ok progress =>
      apply keeps_applied
      rw [workspaces_setDefaultTabsApplied]
      exact sound_foldlM_applyDefaultTab runtime context hsound hfree hfold

end Wakii.TabCommandsSound
