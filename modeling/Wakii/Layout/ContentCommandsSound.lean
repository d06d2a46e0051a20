import Wakii.Layout.ContentCommands
import Wakii.Layout.GroupCommandsSound

/-!
# Commands on content tabs keep a layout sound

The tab an open makes has an id that is checked or minted.  A tab that changes
workspaces leaves one before it joins the other, and a renaming of tabs that
keeps them apart renames them in their groups too.
-/

namespace Wakii.ContentCommandsSound

open List OrderedCollections
open Wakii.CommandSteps Wakii.CommandTypes Wakii.ContentCommands Wakii.GroupCommandsSound
open Wakii.LayoutModel Wakii.LayoutSoundness Wakii.StepsSound
open Wakii.TabCommands Wakii.TabCommandsSound

variable {P : Type} {spare : String → String → Prop} {edit : LayoutEdit P} {key : String}
  {workspace : WorkspaceLayout P}

/-! ## Records beside the tabs -/

theorem sound_writeFrame (hsound : LayoutSound spare edit.model.workspaces)
    {next : WorkspaceLayout P} (hframe : SameFrame (workspaceOrEmpty edit key) next) :
    LayoutSound spare (withWorkspace edit key next).model.workspaces :=
  sound_write hsound rfl ⟨hframe.sound (sound_workspaceOrEmpty hsound key), hframe.evolves⟩

variable (runtime : LayoutRuntime P)

section

variable (hsound : LayoutSound spare edit.model.workspaces)
include hsound

theorem sound_withEditorFile (key : String) (file : Option (LayoutEditorFile P)) :
    LayoutSound spare (withEditorFile runtime edit key file).model.workspaces := by
  unfold withEditorFile
  split
  next file workspace hlookup =>
    apply sound_writeFrame hsound
    rw [workspaceOrEmpty_of_lookup hlookup]
    exact ⟨rfl, rfl, rfl, rfl, rfl⟩
  next => exact hsound

theorem sound_withEditorView (key tabId : String) (view : Option P) :
    LayoutSound spare (withEditorView edit key tabId view).model.workspaces := by
  unfold withEditorView
  split
  next view workspace hlookup =>
    apply sound_writeFrame hsound
    rw [workspaceOrEmpty_of_lookup hlookup]
    exact ⟨rfl, rfl, rfl, rfl, rfl⟩
  next => exact hsound

theorem sound_withEditorRecords (command : OpenEditorTab P) (tabId : String) :
    LayoutSound spare (withEditorRecords runtime edit command tabId).model.workspaces :=
  sound_withEditorView (sound_withEditorFile runtime hsound _ _) _ _ _

end

/-! ## New tabs -/

theorem unused_of_not_any {idsOf : WorkspaceLayout P → List String} {id : String}
    (hnone : ¬ edit.workspaces.any (fun workspace => decide (id ∈ idsOf workspace)) = true) :
    Unused idsOf edit.model.workspaces id := by
  intro key workspace hlookup hmem
  apply hnone
  rw [any_eq_true]
  exact ⟨workspace, OrderedMap.mem_values.mpr ⟨key, hlookup⟩, decide_eq_true hmem⟩

variable {sameContent : LayoutTab P → Bool}

theorem keeps_drawnTabOpen (hsound : LayoutSound spare edit.model.workspaces)
    {tabId : Option String} {refuseTaken : Bool} {result : Applied P}
    (hresult : drawnTabOpen edit key tabId sameContent refuseTaken = some result) :
    Keeps spare result ∧ ∀ drawn, result = .ok drawn → drawn.edit = edit := by
  rw [drawnTabOpen] at hresult
  split at hresult
  · cases hresult
  · dsimp only at hresult
    split at hresult
    · cases hresult
      exact ⟨keeps_applied hsound, fun drawn hdrawn => by rw [← Except.ok.inj hdrawn]⟩
    · split at hresult
      · cases hresult
        exact ⟨keeps_refuse _, fun drawn hdrawn => by cases hdrawn⟩
      · cases hresult

theorem unused_of_drawnTabOpen {tabId : Option String}
    (hnone : drawnTabOpen edit key tabId sameContent true = none) {minted : String}
    (hminted : Unused WorkspaceLayout.tabIds edit.model.workspaces minted) :
    Unused WorkspaceLayout.tabIds edit.model.workspaces ((given tabId).getD minted) := by
  rw [drawnTabOpen] at hnone
  cases htabId : given tabId with
  | none => exact hminted
  | some tabId =>
    rw [htabId] at hnone
    dsimp only at hnone
    split at hnone
    · cases hnone
    · split at hnone
      · cases hnone
      next htaken =>
        rw [Bool.true_and] at htaken
        exact unused_of_not_any htaken

theorem placedGroupId_single {group : LayoutGroup}
    (hgroups : workspace.groups = [group]) (key : String) (placement : TabPlacement)
    (context : LayoutContext) :
    placedGroupId runtime workspace key placement context = group.id := by
  rw [placedGroupId]
  cases hplace : groupToPlaceIn workspace placement with
  | none =>
    have hnone := groups_of_groupToPlaceIn_none hplace
    rw [hgroups] at hnone
    cases hnone
  | some placed =>
    have hmem := mem_of_groupToPlaceIn hplace
    rw [hgroups, mem_singleton] at hmem
    rw [hmem]
    rfl

/-- The sender's group stands ready where there is none; the tab fills it. -/
theorem sound_placeInSendersGroup
    (hsound : LayoutSound spare edit.model.workspaces) (groupId : Option String)
    {tab : LayoutTab P} (placement : TabPlacement) (dirtyTabIds : List String)
    (context : LayoutContext)
    (hunused : Unused WorkspaceLayout.tabIds edit.model.workspaces tab.id)
    (hpanes : tab.paneIds = []) :
    LayoutSound spare (placeContentTab runtime (withSendersGroup edit key groupId) key tab
      placement dirtyTabIds context).edit.model.workspaces := by
  have hplain : LayoutSound spare (placeContentTab runtime edit key tab placement dirtyTabIds
      context).edit.model.workspaces :=
    sound_placeContentTab runtime hsound placement dirtyTabIds context hunused hpanes
      (fun _ _ _ hgroup => hgroup) fun _ hgroup => Or.inl hgroup
  rw [withSendersGroup]
  cases given groupId with
  | none => exact hplain
  | some groupId =>
    dsimp only
    split
    · exact hplain
    next hnone =>
      have hempty : (workspaceOrEmpty edit key).groups = [] := by simpa using hnone
      have hworkspace := sound_workspaceOrEmpty hsound key
      have hgroups := hworkspace.groups
      rw [hempty] at hgroups
      generalize hready : ({ workspaceOrEmpty edit key with
        groups := [⟨groupId, []⟩] } : WorkspaceLayout P) = ready
      have hsoundReady : LayoutSound (fun other otherId =>
          spare other otherId ∨ (other = key ∧ otherId = groupId))
            (withWorkspace edit key ready).model.workspaces := by
        have hevolves : Evolves [] [] (workspaceOrEmpty edit key) ready := by
          rw [← hready]
          exact ⟨fun _ htab => Or.inl htab, fun _ hpane => Or.inl hpane, fun _ => Or.inl rfl⟩
        refine hsound.set rfl ?_ (fun _ _ _ hgroup => Or.inl hgroup) (hevolves.replaces
          (fun _ htab => absurd htab not_mem_nil)
          (fun _ hpane => absurd hpane not_mem_nil) "")
        rw [← hready]
        exact ⟨(hgroups.first groupId).mono fun other hother => Or.inr ⟨rfl, hother⟩,
          hworkspace.panes⟩
      have hunusedReady : Unused WorkspaceLayout.tabIds
          (withWorkspace edit key ready).model.workspaces tab.id := by
        refine Unused.write hunused ?_
        rw [← hready]
        exact Unused.workspaceOrEmpty hunused rfl
      have hself : workspaceOrEmpty (withWorkspace edit key ready) key = ready := by
        rw [workspaceOrEmpty_withWorkspace, if_pos rfl]
      have hsingle : ready.groups = [⟨groupId, []⟩] := by rw [← hready]
      refine sound_placeContentTab runtime hsoundReady placement dirtyTabIds context
        hunusedReady hpanes ?_ ?_
      · rintro other hother otherId (hgroup | ⟨hsame, _⟩)
        · exact hgroup
        · exact absurd hsame hother
      · rintro otherId (hgroup | ⟨_, hsame⟩)
        · exact Or.inl hgroup
        · right
          intro placement
          rw [hself, placedGroupId_single runtime hsingle, hsame]

/-! ## Opening -/

variable {context : LayoutContext}

/-- An editor tab opens under a minted id. -/
theorem keeps_openEditorTab (hsound : LayoutSound spare edit.model.workspaces)
    (command : OpenEditorTab P)
    (hminted : Unused WorkspaceLayout.tabIds edit.model.workspaces (context.mintId 0)) :
    Keeps spare (openEditorTab runtime edit command context) := by
  rw [openEditorTab]
  dsimp only
  cases openedFileId runtime (workspaceOrEmpty edit command.workspace) command with
  | none => exact keeps_refuse _
  | some fileId =>
    dsimp only
    cases hdrawn : drawnTabOpen edit command.workspace command.tabId
        (isFileTab command fileId) true with
    | some result =>
      cases result with
      | error code => exact keeps_refuse _
      | ok drawn =>
        have hedit := (keeps_drawnTabOpen hsound hdrawn).2 drawn rfl
        apply keeps_applied
        rw [hedit]
        exact sound_withEditorRecords runtime hsound command _
    | none =>
      dsimp only
      split
      · exact keeps_refuse _
      split
      next existing hexisting =>
        apply keeps_applied
        apply sound_withEditorRecords
        split
        · have hmem := mem_of_find?_eq_some hexisting
          cases hlookup : edit.workspace? command.workspace with
          | none =>
            rw [workspaceOrEmpty, hlookup] at hmem
            exact absurd hmem not_mem_nil
          | some workspace =>
            rw [workspaceOrEmpty_of_lookup hlookup]
            have hkeeps := keeps_promotePreviewTab hsound hlookup existing.id
            cases hpromoted : promotePreviewTab edit workspace command.workspace existing.id with
            | error code => exact hsound
            | ok promoted => exact hkeeps promoted hpromoted
        · exact hsound
      next =>
        apply keeps_applied
        apply sound_withEditorRecords
        exact sound_placeInSendersGroup runtime hsound command.groupId _ _ _
          (unused_of_drawnTabOpen hdrawn hminted) rfl

theorem keeps_openSimulatorTab
    (hsound : LayoutSound spare edit.model.workspaces) {command : OpenSimulatorTab}
    (context : LayoutContext) (hnew : command.tabId = "" →
      Unused WorkspaceLayout.tabIds edit.model.workspaces command.tabId) :
    Keeps spare (openSimulatorTab runtime edit command context) := by
  rw [openSimulatorTab]
  dsimp only
  cases hdrawn : drawnTabOpen edit command.workspace (some command.tabId)
      (fun tab => tab.contentKind = some .simulator) true with
  | some result => exact (keeps_drawnTabOpen hsound hdrawn).1
  | none =>
    dsimp only
    split
    · exact keeps_refuse _
    · apply keeps_applied
      refine sound_placeInSendersGroup runtime hsound command.groupId _ _ _ ?_ rfl
      by_cases hempty : command.tabId = ""
      · exact hnew hempty
      · have hgiven : given (some command.tabId) = some command.tabId := by
          simp [given, hempty]
        rw [drawnTabOpen, hgiven] at hdrawn
        dsimp only at hdrawn
        split at hdrawn
        · cases hdrawn
        · split at hdrawn
          · cases hdrawn
          next htaken =>
            rw [Bool.true_and] at htaken
            exact unused_of_not_any htaken

theorem drawn_eq_findTab (edit : LayoutEdit P) (key tabId : String) :
    (edit.workspace? key).bind (findTab · tabId) = findTab (workspaceOrEmpty edit key) tabId := by
  rw [workspaceOrEmpty]
  cases edit.workspace? key <;> rfl

def isSessionTab (command : OpenAgentSessionTab) (tab : LayoutTab P) : Bool :=
  tab.contentKind = some .agentSession && tab.entityId = command.sessionId

/-- Only a build whose main process owns the layout checks the id of a chat. -/
theorem keeps_openAgentSessionTab (hsound : LayoutSound spare edit.model.workspaces)
    {command : OpenAgentSessionTab}
    (hminted : Unused WorkspaceLayout.tabIds edit.model.workspaces (context.mintId 0))
    (hnew : runtime.layoutOwnerIsMain = false →
      command.initial.all (admitsInitialSurface edit.model command.workspace) →
        ∀ tabId, given command.tabId = some tabId →
          (findTab (workspaceOrEmpty edit command.workspace) tabId).any
            (isSessionTab command) = false →
              Unused WorkspaceLayout.tabIds edit.model.workspaces tabId) :
    Keeps spare (openAgentSessionTab runtime edit command context) := by
  rw [openAgentSessionTab]
  dsimp only
  by_cases hinitial : command.initial.any fun reason =>
      !admitsInitialSurface edit.model command.workspace reason
  · rw [if_pos hinitial]
    exact keeps_applied hsound
  rw [if_neg hinitial]
  have hadmitted := admitted_of_not_any hinitial
  cases hdrawn : drawnTabOpen edit command.workspace command.tabId (fun tab =>
      tab.contentKind = some .agentSession && tab.entityId = command.sessionId)
        runtime.layoutOwnerIsMain with
  | some result => exact (keeps_drawnTabOpen hsound hdrawn).1
  | none =>
    have hunused : Unused WorkspaceLayout.tabIds edit.model.workspaces
        ((given command.tabId).getD (context.mintId 0)) := by
      cases hmain : runtime.layoutOwnerIsMain with
      | true =>
        rw [hmain] at hdrawn
        exact unused_of_drawnTabOpen hdrawn hminted
      | false =>
        cases htabId : given command.tabId with
        | none => exact hminted
        | some tabId =>
          apply hnew hmain hadmitted tabId htabId
          rw [drawnTabOpen, htabId] at hdrawn
          dsimp only at hdrawn
          split at hdrawn
          · cases hdrawn
          next hother =>
            rw [drawn_eq_findTab, Bool.not_eq_true] at hother
            exact hother
    apply keeps_applied
    exact sound_placeInSendersGroup runtime hsound command.groupId _ _ _ hunused rfl

/-- A browser tab is opened under an unused id. -/
theorem keeps_openBrowserTab (hsound : LayoutSound spare edit.model.workspaces)
    {command : OpenBrowserTab}
    (hnew : given command.browserTabId = none → Unused WorkspaceLayout.tabIds edit.model.workspaces
        (browserTabIds command context).tabId) :
    Keeps spare (openBrowserTab runtime edit command context) := by
  rw [openBrowserTab]
  dsimp only
  cases htaken : (given command.browserTabId).bind fun _ =>
      takenBrowserTabIds edit command.workspace (browserTabIds command context).tabId
        (browserTabIds command context).browserTabId (browserTabIds command context).pageId with
  | some result =>
    obtain ⟨_, _, hresult⟩ := Option.bind_eq_some_iff.mp htaken
    rw [takenBrowserTabIds] at hresult
    split at hresult
    · cases hresult
      exact keeps_applied hsound
    · split at hresult
      · cases hresult
        exact keeps_refuse _
      · split at hresult
        · cases hresult
          exact keeps_refuse _
        · cases hresult
  | none =>
    have hunused : Unused WorkspaceLayout.tabIds edit.model.workspaces
        (browserTabIds command context).tabId := by
      cases hgiven : given command.browserTabId with
      | none => exact hnew hgiven
      | some browserTabId =>
        rw [hgiven, Option.bind_some, takenBrowserTabIds] at htaken
        split at htaken
        · cases htaken
        · split at htaken
          · cases htaken
          next hfree =>
            intro key workspace hlookup hmem
            apply hfree
            obtain ⟨tab, htab, hid⟩ := mem_map.mp hmem
            rw [any_eq_true]
            refine ⟨workspace, OrderedMap.mem_values.mpr ⟨key, hlookup⟩, ?_⟩
            rw [any_eq_true]
            exact ⟨tab, htab, by simp [hid]⟩
    apply keeps_applied
    refine sound_writeFrame ?_ ⟨rfl, rfl, rfl, rfl, rfl⟩
    exact sound_placeContentTab runtime hsound _ _ _ hunused rfl (fun _ _ _ hgroup => hgroup)
      fun _ hgroup => Or.inl hgroup

/-! ## Browser records -/

theorem keeps_withRecord (hsound : LayoutSound spare edit.model.workspaces)
    (hlookup : edit.workspace? key = some workspace) (browserTabId : String)
    (change : LayoutBrowserTab → Option LayoutBrowserTab) :
    Keeps spare (withRecord edit workspace key browserTabId change) := by
  rw [withRecord]
  dsimp only
  split
  · exact keeps_refuse _
  · split
    · exact keeps_refuse _
    · refine keeps_sameFrame hsound hlookup ?_
      exact ⟨rfl, rfl, rfl, rfl, rfl⟩

end Wakii.ContentCommandsSound
